import McpOperator.Proofs.Reconcile.Pass
import McpOperator.Proofs.Store.Footprint

namespace McpOperator

open Memory (Matches Spares)

variable {F : Set Key} {m n : Memory}

/-- With others about on the second store, the work ends there as it does alone on the first one. -/
def Work.Determined {α : Type} (F : Set Key) (w : Work α) (m n : Memory) : Prop :=
  ∀ a n', Spared F w n a n' → ∃ m', w.run Memory.answer m = (a, m') ∧ Matches F m' n'

namespace Work.Determined

variable {α β : Type}

theorem done (h : Matches F m n) (a : α) : (Work.done a).Determined F m n := by
  intro b n' hspared
  cases hspared with
  | done b hothers => exact ⟨m, rfl, hothers.matches_right h⟩

theorem bind {w : Work α} {f : α → Work β} (hw : w.Determined F m n)
    (hf : ∀ a m' n', w.run Memory.answer m = (a, m') → Matches F m' n' → (f a).Determined F m' n') :
    (w.bind f).Determined F m n := by
  intro b n' hspared
  obtain ⟨a, n₁, hfirst, hsecond⟩ := hspared.of_bind
  obtain ⟨m₁, hrun, hmatches⟩ := hw a n₁ hfirst
  obtain ⟨m', hrun', hmatches'⟩ := hf a m₁ n₁ hrun hmatches b n' hsecond
  refine ⟨m', ?_, hmatches'⟩
  rw [Work.run_bind, hrun]
  exact hrun'

theorem get (h : Matches F m n) {key : Key} (hkey : key ∈ F)
    {f : Except StoreError (Option key.kind.Object) → α}
    (hf : ∀ live live', key.kind.unversioned live' = key.kind.unversioned live →
      f (.ok (some live')) = f (.ok (some live))) :
    (Work.call (.get key) fun answer => .done (f answer)).Determined F m n := by
  intro a n' hspared
  cases hspared with
  | @call _ _ _ n₁ _ _ hothers hspared =>
      have h₁ : Matches F m n₁ := hothers.matches_right h
      cases hspared with
      | done a hothers =>
          refine ⟨m, Prod.ext ?_ rfl, hothers.matches_right h₁⟩
          change f (m.get key) = f (n₁.get key)
          rcases h₁.get hkey with
            ⟨e, hget, hget'⟩ | ⟨hget, hget'⟩ | ⟨live, live', hget, hget', -, -, hsame⟩
          · rw [hget, hget']
          · rw [hget, hget']
          · rw [hget, hget', hf live live' hsame]

end Work.Determined

theorem Memory.Matches.Alike.map {α β γ : Type} {r : Except StoreError α} {s : Except StoreError β}
    (h : Alike r s) (x : γ) : (s.map fun _ => x) = r.map fun _ => x := by
  cases r <;> cases s <;> cases h <;> rfl

theorem Spared.of_last {γ : Type} {c c' : Call} {x : γ} {r : Except StoreError γ} {n' : Memory}
    (hspared : Spared F (.call c' fun answer => .done (answer.map fun _ => x)) n r n')
    (h : ∀ n₁, Spares F n n₁ → Matches.Alike (Memory.answer c m).1 (Memory.answer c' n₁).1 ∧
      Matches F (Memory.answer c m).2 (Memory.answer c' n₁).2) :
    ∃ m', (Work.call c fun answer => .done (answer.map fun _ => x)).run Memory.answer m = (r, m') ∧
      Matches F m' n' := by
  cases hspared with
  | call hothers hspared =>
      obtain ⟨halike, hmatches⟩ := h _ hothers
      cases hspared with
      | done r hothers =>
          refine ⟨_, ?_, hothers.matches_right hmatches⟩
          rw [halike.map]
          rfl

namespace Upsert

variable {kind : Kind} {d : kind.Object} {hash : String}

theorem attempt_eq (kind : Kind) (d : kind.Object) (hash : String) : attempt kind d hash =
    .call (.get (Key.of kind d)) fun
      | .error e => .done (.error e)
      | .ok none => .call (.create kind d) fun answer => .done (answer.map fun _ => .created)
      | .ok (some live) =>
          if isCurrent kind d live hash then .done (.ok .unchanged)
          else .call (.replace kind (kind.withResourceVersion d (kind.resourceVersion live)))
            fun answer => .done (answer.map fun _ => .updated) := by
  rw [attempt]
  congr
  funext answer
  rcases answer with e | _ | live
  · rfl
  · dsimp only
    congr
    funext answer
    cases answer <;> rfl
  · dsimp only
    split
    · rfl
    · congr
      funext answer
      cases answer <;> rfl

theorem isCurrent_congr (hd : kind.resourceVersion d = none) {live live' : kind.Object}
    (h : kind.unversioned live' = kind.unversioned live) :
    isCurrent kind d live' hash = isCurrent kind d live hash := by
  rw [isCurrent, isCurrent, storedHash, storedHash, Kind.annotations_congr h,
    ← Kind.isSubset_unversioned hd live', h, Kind.isSubset_unversioned hd]

theorem determined_attempt (h : Matches F m n) (hkey : Key.of kind d ∈ F)
    (hd : kind.resourceVersion d = none) (hash : String) : (attempt kind d hash).Determined F m n := by
  rw [attempt_eq]
  intro r n' hspared
  cases hspared with
  | @call _ _ _ n₁ _ _ hothers hspared =>
      have h₁ : Matches F m n₁ := hothers.matches_right h
      rcases h₁.get hkey with
        ⟨e, hget, hget'⟩ | ⟨hget, hget'⟩ | ⟨live, live', hget, hget', hlive, hlive', hsame⟩
      · simp only [Work.run, Memory.answer, hget, hget'] at hspared ⊢
        cases hspared with
        | done r hothers => exact ⟨m, rfl, hothers.matches_right h₁⟩
      · simp only [Memory.answer, hget'] at hspared
        obtain ⟨m', hrun, hmatches⟩ := hspared.of_last (m := m) (c := .create kind d)
          fun n₂ hothers => (hothers.matches_right h₁).create hkey
        refine ⟨m', Eq.trans ?_ hrun, hmatches⟩
        simp only [Work.run, Memory.answer, hget]
      · simp only [Memory.answer, hget', isCurrent_congr hd hsame] at hspared
        by_cases hcurrent : isCurrent kind d live hash = true
        · rw [if_pos hcurrent] at hspared
          cases hspared with
          | done r hothers =>
              refine ⟨m, ?_, hothers.matches_right h₁⟩
              simp only [Work.run, Memory.answer, hget, if_pos hcurrent]
        · rw [if_neg hcurrent] at hspared
          obtain ⟨m', hrun, hmatches⟩ := hspared.of_last (m := m)
            (c := .replace kind (kind.withResourceVersion d (kind.resourceVersion live)))
            fun n₂ hothers => (hothers.matches_right h₁).replace hlive (hothers.holds hkey hlive')
          refine ⟨m', Eq.trans ?_ hrun, hmatches⟩
          simp only [Work.run, Memory.answer, hget, if_neg hcurrent]

theorem determined_upsert (h : Matches F m n) {o : kind.Object} (hkey : Key.of kind o ∈ F)
    (hversion : kind.resourceVersion o = none) : (upsert kind o).Determined F m n := by
  have hdesired : Key.of kind (desired kind o) ∈ F := by rwa [key_desired]
  have hversion' : kind.resourceVersion (desired kind o) = none := by rwa [resourceVersion_desired]
  rw [upsert, ← desired]
  apply (determined_attempt h hdesired hversion' _).bind
  intro r m' n' _ h'
  cases r with
  | ok outcome => exact .done h' _
  | error e =>
      cases e with
      | alreadyExists => exact determined_attempt h' hdesired hversion' _
      | conflict | timeout | missingResourceVersion | api | transport | request | unreadable | serialization =>
          exact .done h' _

variable {W : Set Key}

theorem writesOnly_attempt (hkey : Key.of kind d ∈ W) (hash : String) :
    (attempt kind d hash).WritesOnly W fun _ => True := by
  rw [attempt_eq]
  apply Work.WritesOnly.get
  intro m _
  rcases m.get (Key.of kind d) with e | _ | live
  · trivial
  · exact .last rfl hkey _
  · dsimp only
    split
    · trivial
    · refine .last ?_ hkey _
      exact congrArg some (Key.of_withResourceVersion kind d _)

theorem writesOnly_upsert {o : kind.Object} (hkey : Key.of kind o ∈ W) :
    (upsert kind o).WritesOnly W fun _ => True := by
  have hdesired : Key.of kind (desired kind o) ∈ W := by rwa [key_desired]
  rw [upsert, ← desired]
  apply (writesOnly_attempt hdesired _).bind
  intro r _
  cases r with
  | ok outcome => trivial
  | error e =>
      cases e with
      | alreadyExists => exact writesOnly_attempt hdesired _
      | conflict | timeout | missingResourceVersion | api | transport | request | unreadable | serialization => trivial

end Upsert

namespace Pass

variable {gatewayImage name : String} {now : Instant} {server server' trigger : McpServer} {W : Set Key}

theorem determined_applyOne (h : Matches F m n) (s : Step) (hkey : s.key ∈ F)
    (hversion : s.kind.resourceVersion s.object = none) :
    (applyOne s.step s.kind s.object).Determined F m n := by
  apply (Upsert.determined_upsert h hkey hversion).bind
  intro r m' n' _ h'
  cases r <;> exact .done h' _

theorem determined_applyAll {l : List Step} (h : Matches F m n) (hkeys : ∀ s ∈ l, s.key ∈ F)
    (hversions : ∀ s ∈ l, s.kind.resourceVersion s.object = none) : (applyAll l).Determined F m n := by
  induction l generalizing m n with
  | nil => exact .done h _
  | cons s rest ih =>
      rw [List.forall_mem_cons] at hkeys hversions
      apply (determined_applyOne h s hkeys.1 hversions.1).bind
      intro r m' n' _ h'
      cases r with
      | error e => exact .done h' _
      | ok => exact ih h' hkeys.2 hversions.2

theorem writesOnly_applyAll {l : List Step} (hkeys : ∀ s ∈ l, s.key ∈ W) :
    (applyAll l).WritesOnly W fun _ => True := by
  induction l with
  | nil => trivial
  | cons s rest ih =>
      rw [List.forall_mem_cons] at hkeys
      have hone : (applyOne s.step s.kind s.object).WritesOnly W fun _ => True := by
        apply (Upsert.writesOnly_upsert hkeys.1).bind
        intro r _
        cases r <;> trivial
      apply hone.bind
      intro r _
      cases r with
      | error e => trivial
      | ok => exact ih hkeys.2

def secretKey? (server : McpServer) : Option Key :=
  server.spec.jwksSecret.map fun ref => ⟨.secret, (Key.of .server server).ns, ref.name⟩

theorem determined_resolveJwks (h : Matches F m n) {spec : ServerSpec} {ns : String}
    (hsecret : ∀ ref ∈ spec.jwksSecret, (⟨.secret, ns, ref.name⟩ : Key) ∈ F) :
    (Gateway.resolveJwks spec ns).Determined F m n := by
  rw [Gateway.resolveJwks]
  rw [ServerSpec.jwksSecret] at hsecret
  split
  · exact .done h _
  · rename_i jwt hjwt
    split
    · rename_i ref href
      apply Work.Determined.get h (hsecret ref (by rw [hjwt]; exact href))
      intro live live' hsame
      have hholds : Secret.holds live' ref.key = Secret.holds live ref.key :=
        Kind.congr_of_unversioned (f := fun s : Secret => s.holds ref.key) (fun _ _ => rfl) hsame
      rw [Gateway.jwksOfSecret, Gateway.jwksOfSecret, hholds]
    · split <;> exact .done h _

theorem determined_derive (h : Matches F m n) (hsecret : ∀ key ∈ secretKey? server, key ∈ F) :
    (Gateway.derive gatewayImage server).Determined F m n := by
  rw [Gateway.derive]
  cases hplan : Gateway.Plan.of gatewayImage server with
  | error e => exact .done h _
  | ok plan =>
      have hkey := Gateway.Plan.of_ok hplan
      apply Work.Determined.bind
      · apply determined_resolveJwks h
        intro ref href
        rw [hkey]
        exact hsecret _ (Option.map_eq_some_iff.2 ⟨ref, href, rfl⟩)
      · intro jwks m' n' _ h'
        cases jwks <;> exact .done h' _

theorem derive_congr (h : SameDesign server server') :
    Gateway.derive gatewayImage server' = Gateway.derive gatewayImage server := by
  rw [Gateway.derive, Gateway.derive, Gateway.Plan.of_congr gatewayImage h.spec h.key h.owner, h.spec]

theorem evaluate_congr (h : SameDesign server server') (key : Key) :
    evaluate gatewayImage key name server' = evaluate gatewayImage key name server := by
  rw [evaluate, evaluate, h.spec, derive_congr h]

def own (key : Key) : Set Key := {k | k.kind ≠ .secret ∧ k.ns = key.ns ∧ k.name = key.name}

theorem mem_own {kind : Kind} (key : Key) (h : kind ≠ .secret) :
    (⟨kind, key.ns, key.name⟩ : Key) ∈ own key :=
  ⟨h, rfl, rfl⟩

/-- What is applied for a server goes under its key, but not in its own place. -/
theorem key_mem_own {plan : Gateway.Plan} (hkey : plan.key = Key.of .server server) (content : String) :
    ∀ s ∈ steps (Gateway.Outputs.ofPlan plan content),
      s.key ∈ own (Key.of .server server) \ {Key.of .server server} := by
  intro s hs
  refine ⟨?_, (server_ne_step hs).symm⟩
  have hmem := List.mem_map_of_mem (f := Step.key) hs
  rw [Gateway.Outputs.keys_steps, hkey] at hmem
  simp only [List.mem_cons, List.not_mem_nil, or_false] at hmem
  rcases hmem with heq | heq | heq
  all_goals
    rw [heq]
    exact mem_own _ (by decide)

theorem writesOnly_derive (W : Set Key) : (Gateway.derive gatewayImage server).WritesOnly W fun r =>
    ∀ outputs, r = .ok outputs → ∃ plan content, plan.key = Key.of .server server ∧
      outputs = .ofPlan plan content := by
  rw [Gateway.derive]
  cases hplan : Gateway.Plan.of gatewayImage server with
  | error e =>
      intro outputs h
      cases h
  | ok plan =>
      have hjwks : (Gateway.resolveJwks server.spec plan.key.ns).WritesOnly W fun _ => True := by
        rw [Gateway.resolveJwks]
        split
        · trivial
        · split
          · apply Work.WritesOnly.get
            intro m _
            trivial
          · split <;> trivial
      apply hjwks.bind
      rintro (e | jwks) - outputs h
      · cases h
      · obtain ⟨config, -, houtputs⟩ := Gateway.Plan.outputs_ok h
        exact ⟨plan, _, Gateway.Plan.of_ok hplan, houtputs⟩

theorem determined_evaluate (h : Matches F m n) (hown : own (Key.of .server server) ⊆ F)
    (hsecret : ∀ key ∈ secretKey? server, key ∈ F) :
    (evaluate gatewayImage (Key.of .server server) name server).Determined F m n := by
  rw [evaluate]
  cases server.spec.validate name with
  | error e => exact .done h _
  | ok =>
      apply (determined_derive h hsecret).bind
      intro r m₁ n₁ hrun h₁
      cases r with
      | error e => exact .done h₁ _
      | ok outputs =>
          obtain rfl := Gateway.eq_of_run_derive hrun
          obtain ⟨plan, content, hkey, rfl⟩ := Gateway.derive_ok hrun
          dsimp only
          rw [apply_eq]
          apply Work.Determined.bind
          · apply determined_applyAll h₁
            · exact fun s hs => hown (key_mem_own hkey content s hs).1
            · exact Gateway.Outputs.versions_steps plan content
          · intro r m₂ n₂ _ h₂
            rcases r with ⟨step, e⟩ | _
            · exact .done h₂ _
            · apply Work.Determined.bind
              · apply Work.Determined.get h₂ (hown (mem_own _ (by decide)))
                intro live live' hsame
                exact Kind.congr_of_unversioned (f := fun d : Deployment => Readiness.of (some d))
                  (fun _ _ => rfl) hsame
              · intro readiness m₃ n₃ _ h₃
                exact .done h₃ _

theorem writesOnly_evaluate (key : Key) : (evaluate gatewayImage key name server).WritesOnly
    (own (Key.of .server server) \ {Key.of .server server}) fun _ => True := by
  rw [evaluate]
  cases server.spec.validate name with
  | error e => trivial
  | ok =>
      apply (writesOnly_derive _).bind
      intro r hr
      cases r with
      | error e => trivial
      | ok outputs =>
          obtain ⟨plan, content, hkey, rfl⟩ := hr outputs rfl
          dsimp only
          rw [apply_eq]
          apply (writesOnly_applyAll (key_mem_own hkey content)).bind
          intro r _
          rcases r with ⟨step, e⟩ | _
          · trivial
          · apply Work.WritesOnly.get
            intro m _
            trivial

theorem sameDesign_of_unversioned (h : Kind.server.unversioned server' = Kind.server.unversioned server) :
    SameDesign server server' where
  spec := Kind.congr_of_unversioned (f := McpServer.spec) (fun _ _ => rfl) h
  key := Kind.key_congr h
  owner := Kind.congr_of_unversioned (f := Gateway.owner?) (fun _ _ => rfl) h

theorem after_congr (h : Kind.server.unversioned server' = Kind.server.unversioned server) (now : Instant)
    (report : Report) : ServerStatus.after now server' report = ServerStatus.after now server report :=
  Kind.congr_of_unversioned (f := fun s : McpServer => ServerStatus.after now s report) (fun _ _ => rfl) h

theorem persist_of_spared (h : Matches F m n) (hkey : Key.of .server server ∈ F)
    (hlive : m.Holds (Key.of .server server) server) (hlive' : n.Holds (Key.of .server server') server')
    (hsame : Kind.server.unversioned server' = Kind.server.unversioned server) {report : Report}
    {r : Except StoreError Unit} {n' : Memory} (hspared : Spared F (persist now server' report) n r n') :
    ∃ m', (persist now server report).run Memory.answer m = (r, m') ∧ Matches F m' n' := by
  have hkey' : Key.of .server server' ∈ F := by rwa [Kind.key_congr hsame]
  have hstatus : server'.status = server.status :=
    Kind.congr_of_unversioned (f := McpServer.status) (fun _ _ => rfl) hsame
  rw [persist_eq, after_congr hsame, hstatus] at hspared
  rw [persist_eq]
  split at hspared
  · rename_i heq
    rw [if_pos heq]
    exact Work.Determined.done h _ r n' hspared
  · rename_i hne
    rw [if_neg hne]
    exact hspared.of_last fun n₁ hothers =>
      (hothers.matches_right h).replaceStatus hlive (hothers.holds hkey' hlive') hsame _

theorem afterFetch_of_spared (h : Matches F m n) {key : Key} (hkey : Key.of .server server = key)
    (hown : own key ⊆ F) (hsecret : ∀ key ∈ secretKey? server, key ∈ F)
    (hlive : m.Holds (Key.of .server server) server) (hlive' : n.Holds (Key.of .server server') server')
    (hsame : Kind.server.unversioned server' = Kind.server.unversioned server)
    {r : Except PassError Unit} {n' : Memory}
    (hspared : Spared F (afterFetch gatewayImage now key name (.ok (some server'))) n r n') :
    ∃ m', (afterFetch gatewayImage now key name (.ok (some server))).run Memory.answer m = (r, m') ∧
      Matches F m' n' := by
  subst hkey
  have hserver : Key.of .server server ∈ F := hown (mem_own _ (by decide))
  have hserver' : Key.of .server server' ∈ F := by rwa [Kind.key_congr hsame]
  rw [afterFetch_eq, evaluate_congr (sameDesign_of_unversioned hsame)] at hspared
  obtain ⟨⟨report, failure⟩, n₁, hevaluate, hpersist⟩ := hspared.of_bind
  obtain ⟨m₁, hrun, h₁⟩ := determined_evaluate h hown hsecret _ _ hevaluate
  rw [run_afterFetch hrun]
  -- The evaluation leaves the server alone, on either store.
  have hwrites : (evaluate gatewayImage (Key.of .server server) name server).WritesOnly
      (own (Key.of .server server) \ {Key.of .server server}) fun _ => True := writesOnly_evaluate _
  have hnot : Key.of .server server ∉ own (Key.of .server server) \ {Key.of .server server} :=
    fun h => h.2 rfl
  have hlive₁ : m₁.Holds (Key.of .server server) server := by
    refine ⟨?_, hlive.key_eq, hlive.whole⟩
    have hkept := hwrites.get?_run h.left hnot
    rw [hrun] at hkept
    exact hkept.trans hlive.objects
  have hlive₁' : n₁.Holds (Key.of .server server') server' := by
    refine ⟨(hevaluate.get? hwrites h.right hserver' ?_).trans hlive'.objects, hlive'.key_eq, hlive'.whole⟩
    rwa [Kind.key_congr hsame]
  obtain ⟨r', n₂, hpersist, hdone⟩ := hpersist.of_bind
  obtain ⟨m', hrun', h₂⟩ := persist_of_spared h₁ hserver hlive₁ hlive₁' hsame hpersist
  rw [hrun']
  cases hdone with
  | done r hothers => exact ⟨m', rfl, hothers.matches_right h₂⟩

theorem determined_reconcile (h : Matches F m n) (hown : own (Key.of .server trigger) ⊆ F)
    (hsecret : ∀ server : McpServer, m.read (Key.of .server trigger) = .ok (some server) →
      ∀ key ∈ secretKey? server, key ∈ F) :
    (reconcile gatewayImage now trigger).Determined F m n := by
  rw [reconcile]
  cases nameOf trigger with
  | error e => exact .done h _
  | ok name =>
      intro r n' hspared
      cases hspared with
      | @call _ _ _ n₁ _ _ hothers hspared =>
          have h₁ : Matches F m n₁ := hothers.matches_right h
          have hkey : Key.of .server trigger ∈ F := hown (mem_own _ (by decide))
          change Spared F (afterFetch _ _ _ _ (n₁.get (Key.of .server trigger))) n₁ r n' at hspared
          change ∃ m', (afterFetch _ _ _ _ (m.get (Key.of .server trigger))).run _ m = _ ∧ _
          rcases h₁.get hkey with
            ⟨e, hget, hget'⟩ | ⟨hget, hget'⟩ | ⟨server, server', hget, hget', hlive, hlive', hsame⟩
          · rw [hget'] at hspared
            rw [hget]
            exact Work.Determined.done h₁ _ r n' hspared
          · rw [hget'] at hspared
            rw [hget]
            exact Work.Determined.done h₁ _ r n' hspared
          · rw [hget'] at hspared
            rw [hget]
            exact afterFetch_of_spared h₁ hlive.key_eq hown (hsecret server hlive.read) hlive.self
              hlive'.self hsame hspared

theorem writesOnly_persist {report : Report} :
    (persist now server report).WritesOnly (own (Key.of .server server)) fun _ => True := by
  rw [persist_eq]
  split
  · trivial
  · exact .last rfl (mem_own (Key.of .server server) (by decide)) _

theorem writesOnly_afterFetch {key : Key} (hkey : Key.of .server server = key) :
    (afterFetch gatewayImage now key name (.ok (some server))).WritesOnly (own key) fun _ => True := by
  subst hkey
  rw [afterFetch_eq]
  apply ((writesOnly_evaluate _).mono (fun _ h => h.1) fun _ h => h).bind
  rintro ⟨report, failure⟩ -
  apply writesOnly_persist.bind
  intro r _
  trivial

theorem writesOnly_reconcile (gatewayImage : String) (now : Instant) (trigger : McpServer) :
    (reconcile gatewayImage now trigger).WritesOnly (own (Key.of .server trigger)) fun _ => True := by
  rw [reconcile]
  cases nameOf trigger with
  | error e => trivial
  | ok name =>
      apply Work.WritesOnly.get
      intro m hm
      rcases hget : m.get (Key.of .server trigger) with e | _ | server
      · trivial
      · trivial
      · exact writesOnly_afterFetch (hm.holds (Memory.read_of_get (by rw [hget]; rfl))).key_eq

end Pass
end McpOperator
