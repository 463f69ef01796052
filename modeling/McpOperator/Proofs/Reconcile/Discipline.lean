import McpOperator.Proofs.Reconcile.Determined
import McpOperator.Proofs.Store.Transcript

namespace McpOperator

open Work (Transcript)

def Exchange.wrote (e : Exchange) : Bool := e.call.target?.isSome && e.answer.isOk

namespace Upsert

/-- What one attempt asks, and how it ends: a read, and one write to what was read at most. A replacement
carries the version that was just read. -/
inductive AttemptCalls (key : Key) : List Exchange → Except StoreError Unit → Prop
  | unread (e : StoreError) : AttemptCalls key [⟨.get key, .error e⟩] (.error e)
  | left (live : key.kind.Object) : AttemptCalls key [⟨.get key, .ok (some live)⟩] (.ok ())
  | create (o : key.kind.Object) (hkey : Key.of key.kind o = key)
      (answer : (Call.create key.kind o).Answer) :
      AttemptCalls key [⟨.get key, .ok none⟩, ⟨.create key.kind o, answer⟩] (answer.map fun _ => ())
  | replace (live o : key.kind.Object) (hkey : Key.of key.kind o = key)
      (hversion : key.kind.resourceVersion o = key.kind.resourceVersion live)
      (answer : (Call.replace key.kind o).Answer) :
      AttemptCalls key [⟨.get key, .ok (some live)⟩, ⟨.replace key.kind o, answer⟩]
        (answer.map fun _ => ())

/-- One attempt, and a second one exactly when the first found that somebody else was there first. -/
inductive Attempts (key : Key) : List Exchange → Except StoreError Unit → Prop
  | once {l : List Exchange} {r : Except StoreError Unit} (h : AttemptCalls key l r)
      (hr : ∀ text, r ≠ .error (.alreadyExists text)) : Attempts key l r
  | twice {l l' : List Exchange} {text : String} {r : Except StoreError Unit}
      (h : AttemptCalls key l (.error (.alreadyExists text))) (h' : AttemptCalls key l' r) :
      Attempts key (l ++ l') r

/-- What an upsert asks, and how it ends. -/
structure Calls (key : Key) (l : List Exchange) (r : Except StoreError Unit) : Prop where
  attempts : Attempts key l r
  writes : l.countP Exchange.wrote ≤ 1

end Upsert

namespace Pass

/-- Upserts under keys one after the other, each after the success of the one before. -/
inductive ApplyCalls : List Key → List Exchange → Except StoreError Unit → Prop
  | nil : ApplyCalls [] [] (.ok ())
  | stop {key : Key} {keys : List Key} {l : List Exchange} {e : StoreError}
      (h : Upsert.Calls key l (.error e)) : ApplyCalls (key :: keys) l (.error e)
  | next {key : Key} {keys : List Key} {l l' : List Exchange} {r : Except StoreError Unit}
      (h : Upsert.Calls key l (.ok ())) (hrest : ApplyCalls keys l' r) :
      ApplyCalls (key :: keys) (l ++ l') r

def outputKeys (server : McpServer) : List Key :=
  [.deployment, .service, .configMap].map fun kind =>
    ⟨kind, (Key.of .server server).ns, (Key.of .server server).name⟩

theorem length_outputKeys (server : McpServer) : (outputKeys server).length = 3 := rfl

/-- The secret is asked for once at most. -/
inductive SecretCalls (server : McpServer) : List Exchange → Prop
  | none : SecretCalls server []
  | one {key : Key} (h : secretKey? server = some key) (answer : (Call.get key).Answer) :
      SecretCalls server [⟨.get key, answer⟩]

/-- What comes between the fetch of a server and the write of its status. Nothing is asked for a server
that is invalid, and nothing is applied unless all that is derived from it could be derived. -/
inductive EvaluationCalls (gatewayImage : String) (key : Key) (name : String) (server : McpServer) :
    List Exchange → Prop
  | invalid {e : ValidationError} (h : server.spec.validate name = .error e) :
      EvaluationCalls gatewayImage key name server []
  | underived {secrets : List Exchange} {e : OutputError} (hvalid : server.spec.validate name = .ok ())
      (hsecrets : SecretCalls server secrets)
      (hderive : (Gateway.derive gatewayImage server).Transcript secrets (.error e)) :
      EvaluationCalls gatewayImage key name server secrets
  | stopped {secrets applied : List Exchange} {outputs : Gateway.Outputs} {e : StoreError}
      (hvalid : server.spec.validate name = .ok ()) (hsecrets : SecretCalls server secrets)
      (hderive : (Gateway.derive gatewayImage server).Transcript secrets (.ok outputs))
      (happly : ApplyCalls (outputKeys server) applied (.error e)) :
      EvaluationCalls gatewayImage key name server (secrets ++ applied)
  | applied {secrets applied : List Exchange} {outputs : Gateway.Outputs}
      (hvalid : server.spec.validate name = .ok ()) (hsecrets : SecretCalls server secrets)
      (hderive : (Gateway.derive gatewayImage server).Transcript secrets (.ok outputs))
      (happly : ApplyCalls (outputKeys server) applied (.ok ()))
      (answer : (Call.get ⟨.deployment, key.ns, key.name⟩).Answer) :
      EvaluationCalls gatewayImage key name server
        (secrets ++ (applied ++ [⟨.get ⟨.deployment, key.ns, key.name⟩, answer⟩]))

/-- A status is written once at most, to the server as it was fetched. -/
inductive StatusCalls (server : McpServer) : List Exchange → Prop
  | none : StatusCalls server []
  | one (written : McpServer) (hmetadata : written.metadata = server.metadata)
      (hspec : written.spec = server.spec) (answer : (Call.replaceStatus written).Answer) :
      StatusCalls server [⟨.replaceStatus written, answer⟩]

/-- What a whole pass asks. -/
inductive Calls (gatewayImage : String) (trigger : McpServer) : List Exchange → Prop
  | rejected {e : TriggerError} (h : nameOf trigger = .error e) : Calls gatewayImage trigger []
  | unfetched {name : String} (h : nameOf trigger = .ok name)
      {answer : (Call.get (Key.of .server trigger)).Answer} (hanswer : ∀ server, answer ≠ .ok (some server)) :
      Calls gatewayImage trigger [⟨.get (Key.of .server trigger), answer⟩]
  | fetched {name : String} (h : nameOf trigger = .ok name) {server : McpServer}
      {evaluated written : List Exchange}
      (hevaluated : EvaluationCalls gatewayImage (Key.of .server trigger) name server evaluated)
      (hwritten : StatusCalls server written) :
      Calls gatewayImage trigger
        (⟨.get (Key.of .server trigger), .ok (some server)⟩ :: (evaluated ++ written))

end Pass

namespace Upsert

variable {kind : Kind} {key : Key} {l : List Exchange}

theorem AttemptCalls.writes {r : Except StoreError Unit} (h : AttemptCalls key l r) :
    l.countP Exchange.wrote = if r.isOk ∧ 1 < l.length then 1 else 0 := by
  cases h with
  | unread e => rfl
  | left live => rfl
  | create o hkey answer => cases answer <;> rfl
  | replace live o hkey hversion answer => cases answer <;> rfl

theorem AttemptCalls.length_le {r : Except StoreError Unit} (h : AttemptCalls key l r) : l.length ≤ 2 := by
  cases h <;> simp

theorem transcript_attempt {d : kind.Object} {hash : String} {r : Except StoreError UpsertOutcome}
    (h : (attempt kind d hash).Transcript l r) :
    AttemptCalls (Key.of kind d) l (r.map fun _ => ()) := by
  rw [attempt_eq] at h
  obtain ⟨answer, rest, rfl, hrest⟩ := h.of_call
  rcases answer with e | _ | live
  · obtain ⟨rfl, rfl⟩ := hrest.of_done
    exact .unread e
  · obtain ⟨answer, rfl, rfl⟩ := hrest.of_last
    have hcalls : AttemptCalls (Key.of kind d) _ _ := .create d rfl answer
    cases answer <;> exact hcalls
  · dsimp only at hrest
    split at hrest
    · obtain ⟨rfl, rfl⟩ := hrest.of_done
      exact .left live
    · obtain ⟨answer, rfl, rfl⟩ := hrest.of_last
      have hcalls : AttemptCalls (Key.of kind d) _ _ :=
        .replace live (kind.withResourceVersion d (kind.resourceVersion live))
          (Key.of_withResourceVersion kind d _) (Kind.resourceVersion_withResourceVersion kind d _) answer
      cases answer <;> exact hcalls

theorem Attempts.writes {r : Except StoreError Unit} (h : Attempts key l r) :
    l.countP Exchange.wrote ≤ 1 := by
  cases h with
  | once h =>
      rw [h.writes]
      split <;> omega
  | twice h h' =>
      -- An attempt that failed has not written, so the write is the second attempt's.
      have hfirst := h.writes
      rw [List.countP_append, hfirst, h'.writes, if_neg (by simp [Except.isOk, Except.toBool])]
      split <;> omega

theorem Attempts.length_le {r : Except StoreError Unit} (h : Attempts key l r) : l.length ≤ 4 := by
  cases h with
  | once h =>
      have := h.length_le
      omega
  | twice h h' =>
      have hfirst := h.length_le
      have hsecond := h'.length_le
      rw [List.length_append]
      omega

theorem transcript_attempts {d : kind.Object} {hash : String} {r : Except StoreError UpsertOutcome}
    (h : ((attempt kind d hash).bind fun
      | .error (.alreadyExists _) => attempt kind d hash
      | result => .done result).Transcript l r) : Attempts (Key.of kind d) l (r.map fun _ => ()) := by
  obtain ⟨first, second, result, rfl, hfirst, hsecond⟩ := h.of_bind
  have hcalls := transcript_attempt hfirst
  cases result with
  | ok outcome =>
      obtain ⟨rfl, rfl⟩ := hsecond.of_done
      rw [List.append_nil]
      exact .once hcalls (by intro text heq; cases heq)
  | error e =>
      cases e with
      | alreadyExists text => exact .twice hcalls (transcript_attempt hsecond)
      | conflict | timeout | missingResourceVersion | api | transport | request | unreadable | serialization =>
          obtain ⟨rfl, rfl⟩ := hsecond.of_done
          rw [List.append_nil]
          exact .once hcalls (by intro text heq; cases heq)

theorem transcript_upsert {o : kind.Object} {r : Except StoreError UpsertOutcome}
    (h : (upsert kind o).Transcript l r) : Calls (Key.of kind o) l (r.map fun _ => ()) := by
  rw [upsert, ← desired] at h
  have hattempts := transcript_attempts h
  rw [key_desired] at hattempts
  exact ⟨hattempts, hattempts.writes⟩

end Upsert

namespace Pass

variable {gatewayImage name : String} {now : Instant} {key : Key} {server trigger : McpServer}
  {l : List Exchange}

theorem ApplyCalls.length_le {keys : List Key} {r : Except StoreError Unit} (h : ApplyCalls keys l r) :
    l.length ≤ 4 * keys.length := by
  induction h with
  | nil => simp
  | stop h =>
      have := h.attempts.length_le
      rw [List.length_cons]
      omega
  | next h _ ih =>
      have := h.attempts.length_le
      rw [List.length_append, List.length_cons]
      omega

theorem transcript_applyOne {step : ApplyStep} {kind : Kind} {o : kind.Object}
    {r : Except (ApplyStep × StoreError) Unit} (h : (applyOne step kind o).Transcript l r) :
    Upsert.Calls (Key.of kind o) l (r.mapError Prod.snd) := by
  obtain ⟨calls, last, outcome, rfl, hcalls, hlast⟩ := Transcript.of_bind h
  have hupsert := Upsert.transcript_upsert hcalls
  cases outcome with
  | error | ok =>
      obtain ⟨rfl, rfl⟩ := hlast.of_done
      rw [List.append_nil]
      exact hupsert

theorem transcript_applyAll {steps : List Step} {r : Except (ApplyStep × StoreError) Unit}
    (h : (applyAll steps).Transcript l r) :
    ApplyCalls (steps.map Step.key) l (r.mapError Prod.snd) := by
  induction steps generalizing l with
  | nil =>
      obtain ⟨rfl, rfl⟩ := h.of_done
      exact .nil
  | cons s rest ih =>
      obtain ⟨first, second, result, rfl, hfirst, hsecond⟩ := h.of_bind
      have hcalls := transcript_applyOne hfirst
      cases result with
      | error e =>
          obtain ⟨rfl, rfl⟩ := hsecond.of_done
          rw [List.append_nil]
          exact .stop hcalls
      | ok => exact .next hcalls (ih hsecond)

theorem transcript_resolveJwks {ns : String} {r : Except OutputError (Option Gateway.Jwks)}
    (hns : ns = (Key.of .server server).ns)
    (h : (Gateway.resolveJwks server.spec ns).Transcript l r) : SecretCalls server l := by
  subst hns
  rw [Gateway.resolveJwks] at h
  split at h
  · obtain ⟨rfl, -⟩ := h.of_done
    exact .none
  · rename_i jwt hjwt
    split at h
    · rename_i ref href
      obtain ⟨answer, rfl, -⟩ := h.of_last
      apply SecretCalls.one
      rw [secretKey?, ServerSpec.jwksSecret, hjwt]
      exact congrArg (Option.map _) href
    · split at h
      all_goals
        obtain ⟨rfl, -⟩ := h.of_done
        exact .none

theorem transcript_derive {r : Except OutputError Gateway.Outputs}
    (h : (Gateway.derive gatewayImage server).Transcript l r) :
    SecretCalls server l ∧
      ∀ outputs, r = .ok outputs → (steps outputs).map Step.key = outputKeys server := by
  rw [Gateway.derive] at h
  cases hplan : Gateway.Plan.of gatewayImage server with
  | error e =>
      rw [hplan] at h
      obtain ⟨rfl, rfl⟩ := h.of_done
      exact ⟨.none, by intro outputs heq; cases heq⟩
  | ok plan =>
      rw [hplan] at h
      have hkey := Gateway.Plan.of_ok hplan
      obtain ⟨secrets, last, jwks, rfl, hsecrets, hlast⟩ := Transcript.of_bind h
      have hcalls := transcript_resolveJwks (congrArg Key.ns hkey) hsecrets
      cases jwks with
      | error e =>
          obtain ⟨rfl, rfl⟩ := hlast.of_done
          rw [List.append_nil]
          exact ⟨hcalls, by intro outputs heq; cases heq⟩
      | ok jwks =>
          obtain ⟨rfl, rfl⟩ := hlast.of_done
          rw [List.append_nil]
          refine ⟨hcalls, ?_⟩
          intro outputs houtputs
          obtain ⟨config, -, rfl⟩ := Gateway.Plan.outputs_ok houtputs
          rw [Gateway.Outputs.keys_steps, hkey]
          rfl

theorem transcript_evaluate {r : Report × Option PassError}
    (h : (evaluate gatewayImage key name server).Transcript l r) :
    EvaluationCalls gatewayImage key name server l := by
  rw [evaluate] at h
  cases hvalid : server.spec.validate name with
  | error e =>
      rw [hvalid] at h
      obtain ⟨rfl, -⟩ := h.of_done
      exact .invalid hvalid
  | ok =>
      rw [hvalid] at h
      obtain ⟨secrets, second, outputs, rfl, hderive, hsecond⟩ := Transcript.of_bind h
      obtain ⟨hsecrets, hkeys⟩ := transcript_derive hderive
      cases outputs with
      | error e =>
          obtain ⟨rfl, -⟩ := hsecond.of_done
          rw [List.append_nil]
          exact .underived hvalid hsecrets hderive
      | ok outputs =>
          obtain ⟨applied, last, result, rfl, happly, hlast⟩ := Transcript.of_bind hsecond
          rw [apply_eq] at happly
          have hcalls := transcript_applyAll happly
          rw [hkeys outputs rfl] at hcalls
          rcases result with ⟨step, e⟩ | _
          · obtain ⟨rfl, -⟩ := hlast.of_done
            rw [List.append_nil]
            exact .stopped hvalid hsecrets hderive hcalls
          · obtain ⟨readiness, hlook, -⟩ := Transcript.of_map hlast
            obtain ⟨answer, rfl, -⟩ := Transcript.of_last hlook
            exact .applied hvalid hsecrets hderive hcalls answer

theorem transcript_persist {report : Report} {r : Except StoreError Unit}
    (h : (persist now server report).Transcript l r) : StatusCalls server l := by
  rw [persist_eq] at h
  split at h
  · obtain ⟨rfl, -⟩ := h.of_done
    exact .none
  · obtain ⟨answer, rfl, -⟩ := h.of_last
    apply StatusCalls.one
    · rfl
    · rfl

theorem transcript_afterFetch {r : Except PassError Unit}
    (h : (afterFetch gatewayImage now key name (.ok (some server))).Transcript l r) :
    ∃ evaluated written, l = evaluated ++ written ∧
      EvaluationCalls gatewayImage key name server evaluated ∧ StatusCalls server written := by
  rw [afterFetch_eq] at h
  obtain ⟨evaluated, second, result, rfl, hevaluated, hsecond⟩ := h.of_bind
  obtain ⟨verdict, hwritten, -⟩ := Transcript.of_map hsecond
  exact ⟨evaluated, second, rfl, transcript_evaluate hevaluated, transcript_persist hwritten⟩

theorem transcript_reconcile {r : Except PassError Unit}
    (h : (reconcile gatewayImage now trigger).Transcript l r) : Calls gatewayImage trigger l := by
  rw [reconcile] at h
  cases hname : nameOf trigger with
  | error e =>
      rw [hname] at h
      obtain ⟨rfl, -⟩ := h.of_done
      exact .rejected hname
  | ok name =>
      rw [hname] at h
      obtain ⟨answer, rest, rfl, hrest⟩ := h.of_call
      rcases answer with e | _ | server
      · obtain ⟨rfl, -⟩ := hrest.of_done
        exact .unfetched hname (by intro server heq; cases heq)
      · obtain ⟨rfl, -⟩ := hrest.of_done
        exact .unfetched hname (by intro server heq; cases heq)
      · obtain ⟨evaluated, written, rfl, hevaluated, hwritten⟩ := transcript_afterFetch hrest
        exact .fetched hname hevaluated hwritten

theorem SecretCalls.length_le (h : SecretCalls server l) : l.length ≤ 1 := by
  cases h <;> simp

theorem StatusCalls.length_le (h : StatusCalls server l) : l.length ≤ 1 := by
  cases h <;> simp

theorem EvaluationCalls.length_le (h : EvaluationCalls gatewayImage key name server l) :
    l.length ≤ 14 := by
  cases h with
  | invalid => simp
  | underived _ hsecrets =>
      have := hsecrets.length_le
      omega
  | stopped _ hsecrets _ happly =>
      have hone := hsecrets.length_le
      have hall := happly.length_le
      rw [length_outputKeys] at hall
      rw [List.length_append]
      omega
  | applied _ hsecrets _ happly =>
      have hone := hsecrets.length_le
      have hall := happly.length_le
      rw [length_outputKeys] at hall
      simp only [List.length_append, List.length_cons, List.length_nil]
      omega

theorem Calls.length_le (h : Calls gatewayImage trigger l) : l.length ≤ 16 := by
  cases h with
  | rejected => simp
  | unfetched => simp
  | fetched _ hevaluated hwritten =>
      have hevaluation := hevaluated.length_le
      have hstatus := hwritten.length_le
      simp only [List.length_cons, List.length_append]
      omega

end Pass

/-- Whatever a store answers, a pass makes its calls in this order, and no more than sixteen of them. -/
theorem reconcile_disciplined {σ : Type} (answer : (c : Call) → σ → c.Answer × σ) (s : σ)
    (gatewayImage : String) (now : Instant) (trigger : McpServer) :
    Pass.Calls gatewayImage trigger ((reconcile gatewayImage now trigger).trace answer s) ∧
      ((reconcile gatewayImage now trigger).trace answer s).length ≤ 16 := by
  have hcalls := Pass.transcript_reconcile
    (Work.transcript_trace answer (reconcile gatewayImage now trigger) s)
  exact ⟨hcalls, hcalls.length_le⟩

end McpOperator
