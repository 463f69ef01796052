import McpOperator.Proofs.Cluster.Lockstep
import McpOperator.Proofs.Codec.Portable

namespace McpOperator.Cluster

def Contents.ofMemory (m : Memory) : Contents where
  object? kind ns name := (m.read ⟨kind, ns, name⟩).toOption.join
  issued := {version | ∃ n ≤ m.version, version = toString n}

theorem Contents.find?_ofMemory {m : Memory} {key : Key} {found : Option key.kind.Object}
    (h : m.read key = .ok found) : (ofMemory m).find? key = found :=
  congrArg (fun r => r.toOption.join) h

theorem Contents.gains_ofMemory (m : Memory) (kind : Kind) (o : kind.Object) :
    (ofMemory m).Gains (ofMemory (m.write kind o).2) kind o (toString (m.version + 1)) where
  fresh := by
    rintro ⟨n, hn, heq⟩
    have := Memory.toString_inj heq
    omega
  issued := by
    ext version
    constructor
    · rintro ⟨n, hn, rfl⟩
      rcases Nat.lt_or_eq_of_le hn with hlt | rfl
      · exact .inr ⟨n, Nat.lt_succ_iff.1 hlt, rfl⟩
      · exact .inl rfl
    · rintro (rfl | ⟨n, hn, rfl⟩)
      · exact ⟨m.version + 1, Nat.le_refl _, rfl⟩
      · exact ⟨n, Nat.le_succ_of_le hn, rfl⟩
  stored := find?_ofMemory (Memory.read_write_self m kind o)
  others key h := by
    rw [find?, find?]
    exact congrArg (fun r => r.toOption.join) (Memory.read_congr (Memory.get?_write_of_ne m kind o h))

theorem corresponds_ofMemory {m : Memory} (hm : m.Sound) (hfaultless : m.Faultless) :
    Corresponds plain m (.ofMemory m) where
  sound := hm
  faultless := hfaultless
  objects key := by
    have hread : ∃ found, m.read key = .ok found := by
      rcases hm.read key with ⟨-, hread⟩ | ⟨live, -, hread⟩
      · exact ⟨none, hread⟩
      · exact ⟨some live, hread⟩
    obtain ⟨found, hread⟩ := hread
    rw [Memory.unversioned, Contents.unversioned?, Contents.find?_ofMemory hread, hread]
    rfl
  versions key live hlive := by
    rcases hm.read key with ⟨-, hread⟩ | ⟨live', hholds, hread⟩
    · rw [Contents.find?_ofMemory hread] at hlive
      cases hlive
    · rw [Contents.find?_ofMemory hread] at hlive
      cases hlive
      obtain ⟨n, hn, hwritten⟩ := hm.written hholds.objects
      have hversion := hwritten.versionOf
      rw [Kind.versionOf_encode] at hversion
      exact ⟨_, ⟨n, hn, rfl⟩, hversion⟩

def shown (kind : Kind) (o : kind.Object) : Exchange :=
  .response { status := 200, text := (kind.encode o).compact }

def refusal (code : UInt16) (reason : String) : Exchange :=
  .response { status := code, text := (ApiFailure.encode ⟨"Failure", "", reason, code⟩).compact }

def stored (kind : Kind) (o : kind.Object) (m : Memory) : Exchange × Memory :=
  (shown kind (kind.withResourceVersion o (some (toString (m.version + 1)))), (m.write kind o).2)

/-- Responds as a cluster does that holds what the store holds. -/
def respond (r : Request) (m : Memory) : Exchange × Memory :=
  match r with
  | ⟨.get, ⟨kind, ns, some name, false⟩, _, _⟩ =>
      match (Contents.ofMemory m).object? kind ns name with
      | some o => (shown kind o, m)
      | none => (refusal 404 "NotFound", m)
  | ⟨.post, ⟨kind, _, none, false⟩, _, some body⟩ =>
      match kind.decode body with
      | .error _ => (refusal 400 "BadRequest", m)
      | .ok o => match (Contents.ofMemory m).stored? kind o with
          | some _ => (refusal 409 "AlreadyExists", m)
          | none => stored kind o m
  | ⟨.put, ⟨kind, _, some _, false⟩, _, some body⟩ =>
      match kind.decode body with
      | .error _ => (refusal 400 "BadRequest", m)
      | .ok o => match (Contents.ofMemory m).stored? kind o with
          | none => (refusal 404 "NotFound", m)
          | some live =>
              if kind.resourceVersion live = kind.resourceVersion o then stored kind o m
              else (refusal 409 "Conflict", m)
  | ⟨.patch, ⟨.server, ns, some name, true⟩, _, some patch⟩ =>
      match (Contents.ofMemory m).object? .server ns name with
      | none => (refusal 404 "NotFound", m)
      | some live =>
          if Kind.server.resourceVersion live = Memory.versionOf patch then
            match patched patch live with
            | .error _ => (refusal 400 "BadRequest", m)
            | .ok server => stored .server server m
          else (refusal 409 "Conflict", m)
  | _ => (refusal 405 "MethodNotAllowed", m)

def ApiServer.inMemory : ApiServer Memory where
  send := respond
  write kind o m := m.seed kind o
  contents := .ofMemory
  gains kind o m := ⟨_, Contents.gains_ofMemory m kind o⟩

theorem shows_shown {kind : Kind} {o : kind.Object} (h : kind.wholeSeconds o = o) :
    (shown kind o).Shows kind o := by
  have hread := Kind.decode_encode o
  rw [h] at hread
  refine ⟨_, rfl, rfl, ?_⟩
  rw [readObject, Kind.ofText?_compact, Option.map_some, hread]

instance : Codec ApiFailure.encode ApiFailure.decode id :=
  .ofObject (by simp [ApiFailure.fields]) (by simp) (by simp) (by simp)

instance : PortableForm ApiFailure.encode 1 := .ofObject (by simp)

theorem refuses_refusal (code : UInt16) (reason : String) : (refusal code reason).Refuses code reason := by
  let failure : ApiFailure := ⟨"Failure", "", reason, code⟩
  have htext : Json.ofText? failure.encode.compact = some failure.encode :=
    Json.ofText?_compact (PortableForm.portable failure) (Tidy.distinct failure) (by decide)
  have hread : ApiFailure.decode failure.encode = .ok failure :=
    Codec.decode_written ApiFailure.encode ApiFailure.decode failure
  refine ⟨_, rfl, rfl, ?_, ?_⟩
  all_goals rw [Response.failure, htext, Option.map_some, hread]

theorem stores_stored {kind : Kind} {o : kind.Object} (h : kind.wholeSeconds o = o) (m : Memory) :
    (Contents.ofMemory m).Stores (stored kind o m).1 (.ofMemory (stored kind o m).2) kind o := by
  refine ⟨_, Contents.gains_ofMemory m kind o, shows_shown ?_⟩
  rw [Kind.wholeSeconds_withResourceVersion, h]

theorem grows_respond (r : Request) (m : Memory) : m.Grows (respond r m).2 := by
  rw [respond.eq_def]
  split
  · split <;> exact .refl m
  · split
    · exact .refl m
    · split
      · exact .refl m
      · exact Memory.grows_write m _ _
  · split
    · exact .refl m
    · split
      · exact .refl m
      · split
        · exact Memory.grows_write m _ _
        · exact .refl m
  · split
    · exact .refl m
    · split
      · split
        · exact .refl m
        · exact Memory.grows_write m _ _
      · exact .refl m
  · exact .refl m

theorem checked_eq_ok {r r' : Request} (h : r.checked = .ok r') : r' = r := by
  rw [Request.checked] at h
  split at h
  · cases h
  · split at h
    · exact (Except.ok.inj h).symm
    · cases h

theorem read_of_find? {m : Memory} {key : Key} {o : key.kind.Object}
    (h : (Contents.ofMemory m).find? key = some o) : m.read key = .ok (some o) := by
  have hread : (m.read key).toOption.join = some o := h
  cases hfound : m.read key with
  | error e =>
      rw [hfound] at hread
      cases hread
  | ok found =>
      rw [hfound] at hread
      exact congrArg Except.ok hread

def Responds (m : Memory) (r : Request) : Prop :=
  Serves (.ofMemory m) r (respond r m).1 (.ofMemory (respond r m).2)

section

variable {m : Memory} (manager : Option String)

theorem responds_get (hm : m.Sound) (key : Key) :
    Responds m ⟨.get, ⟨key.kind, key.ns, some key.name, false⟩, none, none⟩ := by
  simp only [Responds, respond]
  cases hfind : (Contents.ofMemory m).object? key.kind key.ns key.name with
  | none =>
      simp only [Serves, hfind]
      exact ⟨refuses_refusal _ _, trivial⟩
  | some live =>
      simp only [Serves, hfind]
      exact ⟨shows_shown (hm.holds (read_of_find? hfind)).whole, trivial⟩

theorem responds_post (kind : Kind) (o : kind.Object) :
    Responds m ⟨.post, ⟨kind, (Key.of kind o).ns, none, false⟩, manager, some (kind.encode o)⟩ := by
  intro p hp _
  obtain rfl : kind.wholeSeconds o = p := Except.ok.inj ((Kind.decode_encode o).symm.trans hp)
  simp only [respond, hp]
  cases (Contents.ofMemory m).stored? kind (kind.wholeSeconds o) with
  | none => exact stores_stored (Kind.wholeSeconds_wholeSeconds o) m
  | some live => exact ⟨refuses_refusal _ _, rfl⟩

theorem responds_put (kind : Kind) (o : kind.Object) :
    Responds m ⟨.put, ⟨kind, (Key.of kind o).ns, some (Key.of kind o).name, false⟩, manager,
      some (kind.encode o)⟩ := by
  intro p hp _
  obtain rfl : kind.wholeSeconds o = p := Except.ok.inj ((Kind.decode_encode o).symm.trans hp)
  simp only [respond, hp]
  cases (Contents.ofMemory m).stored? kind (kind.wholeSeconds o) with
  | none => exact ⟨refuses_refusal _ _, rfl⟩
  | some live =>
      dsimp only
      split
      · exact stores_stored (Kind.wholeSeconds_wholeSeconds o) m
      · exact ⟨refuses_refusal _ _, rfl⟩

theorem responds_patch (hm : m.Sound) (server : McpServer) (version : String) :
    Responds m ⟨.patch, ⟨.server, (Key.of .server server).ns, some (Key.of .server server).name, true⟩, manager,
      some (statusPatch server version)⟩ := by
  simp only [Responds, respond]
  cases hfind : (Contents.ofMemory m).object? .server (Key.of .server server).ns (Key.of .server server).name with
  | none =>
      simp only [Serves, hfind]
      exact ⟨refuses_refusal _ _, trivial⟩
  | some live =>
      have hread : m.read (Key.of .server server) = .ok (some live) := read_of_find? hfind
      have hwhole : McpServer.wholeSeconds live = live := (hm.holds hread).whole
      simp only [Serves, hfind]
      split
      · intro p hp
        have hstatus : p = { (live : McpServer) with status := server.status.map ServerStatus.wholeSeconds } :=
          Except.ok.inj (hp.symm.trans (patched_statusPatch server version live))
        rw [hp]
        refine stores_stored ?_ m
        rw [hstatus]
        change { McpServer.wholeSeconds live with
          status := (server.status.map ServerStatus.wholeSeconds).map ServerStatus.wholeSeconds } = _
        rw [hwhole]
        cases server.status with
        | none => rfl
        | some status =>
            rw [Option.map_some, Option.map_some, Codec.kept_kept ServerStatus.encode ServerStatus.decode]
      · exact ⟨refuses_refusal _ _, rfl⟩

end

theorem responds_ofCall {m : Memory} (hm : m.Sound) {manager : String} {c : Call} {r : Request}
    (h : Request.ofCall manager c = .ok r) : Responds m r := by
  cases c with
  | get key =>
      obtain ⟨-, -, h⟩ := bind_eq_ok_iff.1 h
      cases checked_eq_ok h
      exact responds_get hm key
  | create kind o =>
      obtain ⟨-, -, h⟩ := bind_eq_ok_iff.1 h
      cases checked_eq_ok h
      exact responds_post _ kind o
  | replace kind o =>
      obtain ⟨-, -, h⟩ := bind_eq_ok_iff.1 h
      cases checked_eq_ok h
      exact responds_put _ kind o
  | replaceStatus server =>
      rw [Request.ofCall] at h
      split at h
      · obtain ⟨version, -, h⟩ := bind_eq_ok_iff.1 h
        obtain ⟨-, -, h⟩ := bind_eq_ok_iff.1 h
        obtain ⟨-, -, h⟩ := bind_eq_ok_iff.1 h
        cases checked_eq_ok h
        exact responds_patch _ hm server version
      · cases h

/-- Whatever the work is, and whatever others write in between. -/
theorem ApiServer.abides_inMemory {α : Type} (manager : String) (w : Work α) {s : Memory × Schedule}
    (hs : s.1.Sound) : ApiServer.inMemory.Abides manager w s := by
  induction w generalizing s with
  | done a => trivial
  | call c next ih =>
      have hbefore : (Work.writeAll ApiServer.inMemory.write (s.2.headD []) s.1).Sound :=
        hs.grow (Memory.grows_seedAll _ s.1)
      refine ⟨fun r hr => responds_ofCall hbefore hr, ih _ ?_⟩
      rw [ApiServer.answerAmid, Work.answerAmid, answer]
      cases Request.ofCall manager c with
      | error e => exact hbefore
      | ok r => exact hbefore.grow (grows_respond r _)

end McpOperator.Cluster
