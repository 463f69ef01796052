import McpOperator.Status.Report
import McpOperator.Proofs.Codec.Server
import McpOperator.Proofs.Table

namespace McpOperator

structure Setting where
  type : ConditionType
  holds : Bool
  reason : ConditionReason
  message : String

def Setting.condition (c : Setting) (generation : Option Int64) (time : Instant) : Condition where
  lastTransitionTime := time
  message := c.message
  observedGeneration := generation
  reason := c.reason.text
  status := ConditionSet.statusText c.holds
  type := c.type.text

def Readiness.setting : Readiness → Setting
  | .replicas ready desired =>
      if ready = desired ∧ 0 < ready then
        ⟨.ready, true, .ready, "Deployment is ready and all pods are running"⟩
      else
        ⟨.ready, false, .podsNotReady,
          "Deployment not ready: " ++ toString ready.toInt ++ "/" ++ toString desired.toInt ++
            " replicas ready"⟩
  | .deploymentNotFound => ⟨.ready, false, .deploymentNotFound, "Deployment not found"⟩
  | .unobserved error => ⟨.ready, false, .podsNotReady, "Error getting deployment: " ++ error⟩

namespace Setting

def accepted : Setting := ⟨.accepted, true, .accepted, "MCPServer configuration is valid"⟩

def resolvedRefs : Setting :=
  ⟨.resolvedRefs, true, .resolvedRefs, "All references resolved successfully"⟩

def programmed : Setting := ⟨.programmed, true, .programmed, "All resources created successfully"⟩

def failed (type : ConditionType) : Setting :=
  ⟨type, false, .invalidConfig, "Configuration validation failed"⟩

def notProgrammed (reason : ConditionReason) (message : String) : List Setting :=
  [accepted, resolvedRefs, ⟨.programmed, false, reason, message⟩,
    ⟨.ready, false, .podsNotReady, "Resources failed to be created"⟩]

end Setting

def Report.settings : Report → List Setting
  | .invalid error =>
      [⟨.accepted, false,
          if error = .unsupportedTransport then .unsupportedTransport else .invalidConfig,
          error.message⟩,
        .failed .resolvedRefs, .failed .programmed,
        ⟨.ready, false, .podsNotReady, "Configuration validation failed"⟩]
  | .translationFailed message => Setting.notProgrammed .translationFailed message
  | .applyFailed step message => Setting.notProgrammed step.failureReason message
  | .applied readiness => [.accepted, .resolvedRefs, .programmed, readiness.setting]

theorem Readiness.setting_type (r : Readiness) : r.setting.type = .ready := by
  cases r with
  | replicas ready desired =>
      rw [setting]
      split <;> rfl
  | deploymentNotFound | unobserved => rfl

theorem Report.settings_types (r : Report) :
    r.settings.map Setting.type = [.accepted, .resolvedRefs, .programmed, .ready] := by
  cases r with
  | applied readiness => simp [settings, Setting.accepted, Setting.resolvedRefs, Setting.programmed,
      Readiness.setting_type]
  | invalid | translationFailed | applyFailed => rfl

theorem Report.settings_nodup (r : Report) : (r.settings.map fun c => c.type.text).Nodup := by
  have htexts : (r.settings.map fun c => c.type.text) =
      (r.settings.map Setting.type).map ConditionType.text := by
    rw [List.map_map]
    rfl
  rw [htexts, settings_types]
  decide

namespace ConditionSet

variable (s : ConditionSet) (now : Instant)

def put (c : Setting) : ConditionSet := s.set now c.type c.holds c.reason c.message

theorem setReady_eq (r : Readiness) : s.setReady now r = s.put now r.setting := by
  cases r with
  | replicas ready desired =>
      rw [setReady, Readiness.setting]
      split <;> rfl
  | deploymentNotFound | unobserved => rfl

theorem setReport_eq (r : Report) : s.setReport now r = r.settings.foldl (put · now) s := by
  cases r with
  | applied readiness => exact setReady_eq _ now readiness
  | invalid | translationFailed | applyFailed => rfl

@[simp] theorem put_generation (c : Setting) : (s.put now c).generation = s.generation := rfl

theorem put_table (c : Setting) :
    (s.put now c).table = s.table.put c.type.text
      (c.condition s.generation (s.transitionTime now c.type.text (statusText c.holds))) := rfl

@[simp] theorem foldl_put_generation (cs : List Setting) :
    (cs.foldl (put · now) s).generation = s.generation := by
  induction cs generalizing s with
  | nil => rfl
  | cons c rest ih => rw [List.foldl_cons, ih, put_generation]

/-- Each condition stands under its own type, and no type stands twice. -/
structure Keyed (s : ConditionSet) : Prop where
  nodup : s.table.keys.Nodup
  type_eq : ∀ e ∈ s.table, e.2.type = e.1

/-- The setting is what the set says of its type, since some time or other. -/
def Told (c : Setting) : Prop :=
  ∃ time, s.table.get? c.type.text = some (c.condition s.generation time)

variable {s}

theorem type_eq_of_mem_put {t : Table String Condition} (h : ∀ e ∈ t, e.2.type = e.1)
    {type : String} {c : Condition} (hc : c.type = type) : ∀ e ∈ t.put type c, e.2.type = e.1 := by
  induction t with
  | nil => simp [Table.put, hc]
  | cons d rest ih =>
      rw [List.forall_mem_cons] at h
      rw [Table.put]
      split
      · rename_i hd
        rw [List.forall_mem_cons]
        exact ⟨hc.trans hd.symm, h.2⟩
      · rw [List.forall_mem_cons]
        exact ⟨h.1, ih h.2⟩

theorem keyed_ofList (existing : List Condition) (generation : Option Int64) :
    (ofList existing generation).Keyed := by
  suffices h : ∀ t : Table String Condition, t.keys.Nodup → (∀ e ∈ t, e.2.type = e.1) →
      Keyed ⟨existing.foldl (fun t c => t.put c.type c) t, generation⟩ from
    h [] List.nodup_nil (by simp)
  induction existing with
  | nil => exact fun t hnodup htype => ⟨hnodup, htype⟩
  | cons c rest ih =>
      intro t hnodup htype
      exact ih _ (Table.nodup_keys_put hnodup c.type c) (type_eq_of_mem_put htype rfl)

theorem Keyed.foldl_put (h : s.Keyed) (cs : List Setting) : (cs.foldl (put · now) s).Keyed := by
  induction cs generalizing s with
  | nil => exact h
  | cons c rest ih =>
      refine ih ⟨?_, ?_⟩
      · rw [put_table]
        exact Table.nodup_keys_put h.nodup _ _
      · rw [put_table]
        exact type_eq_of_mem_put h.type_eq rfl

theorem Keyed.setReport (h : s.Keyed) (r : Report) : (s.setReport now r).Keyed := by
  rw [setReport_eq]
  exact h.foldl_put now r.settings

theorem ofList_map_toList (h : s.Keyed) {f : Condition → Condition} (hf : ∀ c, (f c).type = c.type) :
    ofList (s.toList.map f) s.generation = { s with table := s.table.mapValues f } := by
  suffices hfold : ∀ (before : Table String Condition) (t : Table String Condition),
      Table.keys (before ++ t) |>.Nodup → (∀ e ∈ t, e.2.type = e.1) →
      ((t.map Prod.snd).map f).foldl (fun t c => t.put c.type c) before =
        before ++ t.mapValues f by
    have := hfold [] s.table h.nodup h.type_eq
    rw [ofList, toList, this]
    rfl
  intro before t
  induction t generalizing before with
  | nil => intro _ _; simp [Table.mapValues]
  | cons e rest ih =>
      intro hnodup htype
      rw [List.forall_mem_cons] at htype
      have hkey : (f e.2).type = e.1 := (hf e.2).trans htype.1
      have hfresh : e.1 ∉ before.keys := by
        intro hmem
        simp only [Table.keys, List.map_append, List.nodup_append] at hnodup
        exact hnodup.2.2 e.1 hmem e.1 (by simp) rfl
      have hput : before.put (f e.2).type (f e.2) = before ++ [(e.1, f e.2)] := by
        rw [hkey, Table.put_of_not_mem _ hfresh]
      rw [List.map_cons, List.map_cons, List.foldl_cons, hput, ih _ ?_ htype.2]
      · simp [Table.mapValues]
      · simpa [Table.keys] using hnodup

theorem put_of_told {c : Setting} (h : s.Told c) : s.put now c = s := by
  obtain ⟨time, hget⟩ := h
  have htime : s.transitionTime now c.type.text (statusText c.holds) = time := by
    rw [transitionTime, hget]
    exact if_pos rfl
  have htable : (s.put now c).table = s.table := by
    rw [put_table, htime]
    exact Table.put_of_get? hget
  cases s
  exact congrArg (ConditionSet.mk · _) htable

theorem setReport_of_told {r : Report} (h : ∀ c ∈ r.settings, s.Told c) : s.setReport now r = s := by
  rw [setReport_eq]
  generalize r.settings = cs at h
  induction cs with
  | nil => rfl
  | cons c rest ih =>
      rw [List.forall_mem_cons] at h
      rw [List.foldl_cons, put_of_told now h.1]
      exact ih h.2

theorem told_put_of_ne {c d : Setting} (h : s.Told c) (hne : d.type.text ≠ c.type.text) :
    (s.put now d).Told c := by
  obtain ⟨time, hget⟩ := h
  refine ⟨time, ?_⟩
  rw [put_table, Table.get?_put_of_ne _ _ hne]
  exact hget

theorem told_put_self (c : Setting) : (s.put now c).Told c := by
  refine ⟨s.transitionTime now c.type.text (statusText c.holds), ?_⟩
  rw [put_table, Table.get?_put_self]
  rfl

theorem told_foldl {cs : List Setting} (hnodup : (cs.map fun c => c.type.text).Nodup) :
    (∀ c ∈ cs, (cs.foldl (put · now) s).Told c) ∧
      ∀ d, s.Told d → d.type.text ∉ cs.map (fun c => c.type.text) →
        (cs.foldl (put · now) s).Told d := by
  induction cs generalizing s with
  | nil => exact ⟨by simp, fun d h _ => h⟩
  | cons c rest ih =>
      rw [List.map_cons, List.nodup_cons] at hnodup
      obtain ⟨hrest, hothers⟩ := ih (s := s.put now c) hnodup.2
      refine ⟨List.forall_mem_cons.2 ⟨hothers c (told_put_self now c) hnodup.1, hrest⟩, ?_⟩
      intro d hd hmem
      rw [List.map_cons, List.mem_cons, not_or] at hmem
      exact hothers d (told_put_of_ne now hd (Ne.symm hmem.1)) hmem.2

theorem told_setReport (r : Report) : ∀ c ∈ r.settings, (s.setReport now r).Told c := by
  rw [setReport_eq]
  exact (told_foldl now r.settings_nodup).1

end ConditionSet
end McpOperator
