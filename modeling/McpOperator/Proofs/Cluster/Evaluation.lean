import McpOperator.Proofs.Cluster.Lockstep
import McpOperator.Proofs.Reconcile.Determined

namespace McpOperator

open Cluster (Addressable ApiServer Contents Corresponds IsManager Linkage Lockstep Tied)

def Condition.unworded (c : Condition) : Condition :=
  if c.type = ConditionType.programmed.text then { c with message := "" } else c

def ServerStatus.unworded (s : ServerStatus) : ServerStatus :=
  { s with conditions := s.conditions.map Condition.unworded }

def McpServer.unworded (server : McpServer) : McpServer :=
  { server with status := server.status.map ServerStatus.unworded }

def Kind.unworded : (kind : Kind) → kind.Object → kind.Object
  | .server => McpServer.unworded
  | .deployment | .service | .configMap | .secret => id

/-- The view in which the words of the server under a key do not count. -/
def wordless (server : Key) (key : Key) (o : key.kind.Object) : key.kind.Object :=
  if key = server then key.kind.unworded o else o

theorem wordless_self (key : Key) (o : key.kind.Object) : wordless key key o = key.kind.unworded o :=
  if_pos rfl

theorem ServerStatus.unworded_wholeSeconds (s : ServerStatus) :
    s.wholeSeconds.unworded = s.unworded.wholeSeconds := by
  have hone : ∀ c : Condition, c.wholeSeconds.unworded = c.unworded.wholeSeconds := by
    intro c
    rw [Condition.unworded, Condition.unworded, apply_ite Condition.wholeSeconds]
    rfl
  rw [unworded, unworded, wholeSeconds, wholeSeconds, List.map_map, List.map_map]
  simp [hone]

theorem ServerStatus.unworded_after (now : Instant) (server : McpServer) (step : ApplyStep)
    (message message' : String) :
    (after now server (.applyFailed step message)).unworded =
      (after now server (.applyFailed step message')).unworded := by
  have htable : ∀ s : ConditionSet,
      ((s.setReport now (.applyFailed step message)).table.mapValues Condition.unworded) =
        (s.setReport now (.applyFailed step message')).table.mapValues Condition.unworded := by
    intro s
    have hne : ConditionType.programmed.text ≠ ConditionType.ready.text := by decide
    simp only [ConditionSet.setReport, ConditionSet.setNotProgrammed, ConditionSet.set,
      ConditionSet.transitionTime, Table.mapValues_put, Table.get?_put_of_ne _ _ hne, Condition.unworded]
    rfl
  have hlist : ∀ s : ConditionSet, s.toList.map Condition.unworded =
      (s.table.mapValues Condition.unworded).map Prod.snd := by
    intro s
    simp [ConditionSet.toList, Table.mapValues]
  rw [after_eq, after_eq, unworded, unworded, hlist, hlist, htable]

/-- The same result, but for the text of a conflict. -/
inductive SameOutcome {α : Type} : Except StoreError α → Except StoreError α → Prop
  | ok (a : α) : SameOutcome (.ok a) (.ok a)
  | conflict (what what' : String) : SameOutcome (.error (.conflict what)) (.error (.conflict what'))

section

variable {σ : Type} {api : ApiServer σ} {manager : String} {ν : Linkage} {m : Memory} {s : σ}

namespace Upsert

variable {kind : Kind}

theorem lockstep_attempt (hmanager : IsManager manager) (h : Tied ν m (api.contents s)) {d : kind.Object}
    (hkey : Addressable (Key.of kind d)) (hd : kind.resourceVersion d = none) (hash : String) :
    Lockstep api manager ν (attempt kind d hash) (attempt kind d hash) m s fun ν' r r' =>
      SameOutcome r r' ∨ ¬ ν.Present (Key.of kind d) ∧ ν'.Present (Key.of kind d) ∧
        ∃ what what', r = .error (.alreadyExists what) ∧ r' = .error (.alreadyExists what') := by
  rw [attempt_eq]
  apply Lockstep.get hkey h
  rintro ν₁ m₁ s₁ _ _ hle htied (habsent | @⟨live, live', v, w, -, hsame, hv, hw, hlinked⟩)
  · refine Lockstep.call htied (Cluster.ofCall_create hmanager hkey)
      (fun _ _ _ => Cluster.answers_create) ?_
    intro ν₂ m₂ s₂ s₃ reply hle₂ htied₂ hanswers
    obtain ⟨ν₃, hle₃, htied₃, hpresent, houtcome⟩ := htied₂.create hanswers
    refine ⟨ν₃, hle₃, htied₃, Lockstep.done htied₃ ?_⟩
    change SameOutcome ((m₂.create kind d).1.map _) _ ∨ _
    rcases houtcome with ⟨p, p', hleft, rfl⟩ | ⟨what, what', hleft, rfl⟩
    · rw [hleft]
      exact .inl (.ok _)
    · refine .inr ⟨?_, hpresent, what, what', congrArg _ hleft, rfl⟩
      rintro ⟨v, w, hlinked⟩
      exact habsent ⟨v, w, hle _ _ _ hlinked⟩
  · dsimp only
    rw [isCurrent_congr hd hsame]
    split
    · exact Lockstep.done htied (.inl (.ok _))
    · have hkey' : Addressable (Key.of kind (kind.withResourceVersion d (kind.resourceVersion live'))) := by
        rwa [Key.of_withResourceVersion]
      have hboth : kind.unversioned (kind.withResourceVersion d (kind.resourceVersion live')) =
          kind.unversioned (kind.withResourceVersion d (kind.resourceVersion live)) := by
        rw [Kind.unversioned_withResourceVersion, Kind.unversioned_withResourceVersion]
      refine Lockstep.call htied (Cluster.ofCall_replace hmanager hkey')
        (fun _ _ _ => Cluster.answers_replace) ?_
      intro ν₂ m₂ s₂ s₃ reply hle₂ htied₂ hanswers
      have hread : ν₂ (Key.of kind (kind.withResourceVersion d (kind.resourceVersion live))) v w := by
        rw [Key.of_withResourceVersion]
        exact hle₂ _ _ _ hlinked
      obtain ⟨ν₃, hle₃, htied₃, houtcome⟩ := htied₂.replace hboth
        ((Kind.resourceVersion_withResourceVersion kind d _).trans hv)
        ((Kind.resourceVersion_withResourceVersion kind d _).trans hw) hread hanswers
      refine ⟨ν₃, hle₃, htied₃, Lockstep.done htied₃ (.inl ?_)⟩
      change SameOutcome ((m₂.replace kind _).1.map _) _
      rcases houtcome with ⟨p, p', hleft, rfl⟩ | ⟨what, what', hleft, rfl⟩
      · rw [hleft]
        exact .ok _
      · rw [hleft]
        exact .conflict what what'

theorem lockstep_upsert (hmanager : IsManager manager) (h : Tied ν m (api.contents s)) {o : kind.Object}
    (hkey : Addressable (Key.of kind o)) (hversion : kind.resourceVersion o = none) :
    Lockstep api manager ν (upsert kind o) (upsert kind o) m s fun _ => SameOutcome := by
  have hdesired : Addressable (Key.of kind (desired kind o)) := by rwa [key_desired]
  have hversion' : kind.resourceVersion (desired kind o) = none := by rwa [resourceVersion_desired]
  rw [upsert, ← desired]
  apply (lockstep_attempt hmanager h hdesired hversion' _).bind
  rintro ν₁ m₁ s₁ r r' - htied (hsame | ⟨-, hpresent, what, what', rfl, rfl⟩)
  · cases hsame with
    | ok outcome => exact .done htied (.ok outcome)
    | conflict what what' => exact .done htied (.conflict what what')
  · -- Nothing that is there is ever removed, so the second attempt cannot lose the same way.
    apply (lockstep_attempt hmanager htied hdesired hversion' _).mono
    rintro ν₂ r r' (hsame | ⟨habsent, -⟩)
    · exact hsame
    · exact absurd hpresent habsent

end Upsert

namespace Pass

variable {gatewayImage name : String} {now : Instant} {server server' trigger : McpServer}

inductive SameSteps : Except (ApplyStep × StoreError) Unit → Except (ApplyStep × StoreError) Unit → Prop
  | ok : SameSteps (.ok ()) (.ok ())
  | conflict (step : ApplyStep) (what what' : String) :
      SameSteps (.error (step, .conflict what)) (.error (step, .conflict what'))

theorem lockstep_applyAll (hmanager : IsManager manager) {l : List Step} (h : Tied ν m (api.contents s))
    (hkeys : ∀ p ∈ l, Addressable p.key) (hversions : ∀ p ∈ l, p.kind.resourceVersion p.object = none) :
    Lockstep api manager ν (applyAll l) (applyAll l) m s fun _ => SameSteps := by
  induction l generalizing ν m s with
  | nil => exact .done h .ok
  | cons p rest ih =>
      rw [List.forall_mem_cons] at hkeys hversions
      have hone : Lockstep api manager ν (applyOne p.step p.kind p.object)
          (applyOne p.step p.kind p.object) m s fun _ => SameSteps := by
        apply (Upsert.lockstep_upsert hmanager h hkeys.1 hversions.1).bind
        intro ν₁ m₁ s₁ r r' _ htied hsame
        cases hsame with
        | ok outcome => exact .done htied .ok
        | conflict what what' => exact .done htied (.conflict p.step what what')
      apply hone.bind
      intro ν₁ m₁ s₁ r r' _ htied hsame
      cases hsame with
      | ok => exact ih htied hkeys.2 hversions.2
      | conflict step what what' => exact .done htied (.conflict step what what')

theorem lockstep_resolveJwks (h : Tied ν m (api.contents s)) {spec : ServerSpec} {ns : String}
    (hsecret : ∀ ref ∈ spec.jwksSecret, Addressable ⟨.secret, ns, ref.name⟩) :
    Lockstep api manager ν (Gateway.resolveJwks spec ns) (Gateway.resolveJwks spec ns) m s
      fun _ r r' => r' = r := by
  rw [Gateway.resolveJwks]
  rw [ServerSpec.jwksSecret] at hsecret
  split
  · exact .done h rfl
  · rename_i jwt hjwt
    split
    · rename_i ref href
      apply Lockstep.get (hsecret ref (by rw [hjwt]; exact href)) h
      rintro ν₁ m₁ s₁ _ _ - htied (- | @⟨live, live', -, -, -, hsame, -⟩)
      · exact .done htied rfl
      · have hholds : Secret.holds live' ref.key = Secret.holds live ref.key :=
          Kind.congr_of_unversioned (f := fun s : Secret => s.holds ref.key) (fun _ _ => rfl) hsame
        refine .done htied ?_
        rw [Gateway.jwksOfSecret, Gateway.jwksOfSecret, hholds]
    · split <;> exact .done h rfl

theorem lockstep_derive (h : Tied ν m (api.contents s))
    (hsecret : ∀ key ∈ secretKey? server, Addressable key) :
    Lockstep api manager ν (Gateway.derive gatewayImage server) (Gateway.derive gatewayImage server) m s
      fun _ r r' => r' = r ∧ ∀ outputs, r = .ok outputs →
        ∃ plan content, plan.key = Key.of .server server ∧ outputs = .ofPlan plan content := by
  rw [Gateway.derive]
  cases hplan : Gateway.Plan.of gatewayImage server with
  | error e =>
      refine .done h ⟨rfl, ?_⟩
      intro outputs h
      cases h
  | ok plan =>
      have hkey := Gateway.Plan.of_ok hplan
      apply Lockstep.bind
      · apply lockstep_resolveJwks h
        intro ref href
        rw [hkey]
        exact hsecret _ (Option.map_eq_some_iff.2 ⟨ref, href, rfl⟩)
      · rintro ν₁ m₁ s₁ _ jwks - htied rfl
        cases jwks with
        | error e =>
            refine .done htied ⟨rfl, ?_⟩
            intro outputs h
            cases h
        | ok jwks =>
            refine .done htied ⟨rfl, ?_⟩
            intro outputs h
            obtain ⟨config, -, houtputs⟩ := Gateway.Plan.outputs_ok h
            exact ⟨plan, _, hkey, houtputs⟩

inductive SameEnd : Report × Option PassError → Report × Option PassError → Prop
  | same (p : Report × Option PassError) : SameEnd p p
  | conflict (step : ApplyStep) (what what' : String) :
      SameEnd (.applyFailed step (StoreError.conflict what).message, some (.store (.conflict what)))
        (.applyFailed step (StoreError.conflict what').message, some (.store (.conflict what')))

theorem addressable_own {key k : Key} (h : Addressable key) (hk : k ∈ own key) : Addressable k := by
  obtain ⟨kind, ns, name⟩ := k
  obtain ⟨-, rfl, rfl⟩ := hk
  exact ⟨h.name_ne_empty, h.name_text, h.ns_text, h.short⟩

theorem lockstep_evaluate (hmanager : IsManager manager) (h : Tied ν m (api.contents s))
    (hkey : Addressable (Key.of .server server)) (hsecret : ∀ key ∈ secretKey? server, Addressable key) :
    Lockstep api manager ν (evaluate gatewayImage (Key.of .server server) name server)
      (evaluate gatewayImage (Key.of .server server) name server) m s fun _ => SameEnd := by
  rw [evaluate]
  cases server.spec.validate name with
  | error e => exact .done h (.same _)
  | ok =>
      apply (lockstep_derive h hsecret).bind
      rintro ν₁ m₁ s₁ _ r - htied ⟨rfl, hplan⟩
      cases r with
      | error e => exact .done htied (.same _)
      | ok outputs =>
          obtain ⟨plan, content, hplankey, rfl⟩ := hplan outputs rfl
          dsimp only
          rw [apply_eq]
          apply Lockstep.bind
          · refine lockstep_applyAll hmanager htied ?_ (Gateway.Outputs.versions_steps plan content)
            exact fun s hs => addressable_own hkey (key_mem_own hplankey content s hs).1
          · intro ν₂ m₂ s₂ r r' _ htied₂ hsame
            cases hsame with
            | conflict step what what' => exact .done htied₂ (.conflict step what what')
            | ok =>
                apply Lockstep.bind
                · apply Lockstep.get (addressable_own hkey (mem_own _ (by decide))) htied₂
                  rintro ν₃ m₃ s₃ _ _ - htied₃ (- | ⟨-, hsame, -⟩)
                  · exact .done htied₃ (rfl : readinessOf _ = _)
                  · refine .done htied₃ (?_ : readinessOf _ = readinessOf _)
                    exact (Kind.congr_of_unversioned (f := fun d : Deployment => Readiness.of (some d))
                      (fun _ _ => rfl) hsame).symm
                · rintro ν₃ m₃ s₃ readiness _ - htied₃ rfl
                  exact .done htied₃ (.same _)

end Pass

end

end McpOperator
