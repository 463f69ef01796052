import McpOperator.Objects.Form.Basic

namespace McpOperator.Layout

def sessionAffinityConfig : Layout where
  form := .record "SessionAffinityConfig" (.ofList [
    ("clientIP", .optional, .record "ClientIPConfig" (.ofList [("timeoutSeconds", .optional, .int32)]))])
  ascending := by decide

def loadBalancerStatus : Layout where
  form := .record "LoadBalancerStatus" (.ofList [
    ("ingress", .optional, .list (.record "LoadBalancerIngress" (.ofList [
      ("hostname", .optional, .text),
      ("ip", .optional, .text),
      ("ipMode", .optional, .text),
      ("ports", .optional, .list (.record "PortStatus" (.ofList [
        ("error", .optional, .text),
        ("port", .required, .int32),
        ("protocol", .required, .text)])))])))])
  ascending := by decide

end McpOperator.Layout
