import McpOperator.Cluster.Client
import McpOperator.Proofs.Cluster.Addressing
import McpOperator.Proofs.Codec.Kind
import Mathlib.Data.Set.Insert

namespace McpOperator

namespace Json

mutual

/-- The tree that a merge patch makes of another one: members are merged one by one, null takes a member
away, and anything else stands for itself. -/
def mergedInto : Json → Json → Json
  | .obj patch, .obj members => .obj (membersMergedInto patch members)
  | .obj patch, _ => .obj (membersMergedInto patch [])
  | patch, _ => patch

def membersMergedInto : Members → Members → Members
  | [], members => members
  | (key, value) :: rest, members =>
      let others := members.filter fun e => e.1 ≠ key
      membersMergedInto rest
        (if value = .null then others
        else (key, value.mergedInto ((members.lookup key).getD .null)) :: others)

end

section

variable {α : Type}

@[simp] theorem mergedInto_ofInt64 (n : Int64) (target : Json) : (ofInt64 n).mergedInto target = ofInt64 n :=
  rfl

@[simp] theorem mergedInto_ofList (encode : α → Json) (l : List α) (target : Json) :
    (ofList encode l).mergedInto target = ofList encode l :=
  rfl

@[simp] theorem ofInt64_ne_null (n : Int64) : ofInt64 n ≠ null := nofun

@[simp] theorem ofList_ne_null (encode : α → Json) (l : List α) : ofList encode l ≠ null := nofun

end

end Json

theorem Decode.orNull_of_ok {α : Type} {decode : Decoder α} {json : Json} {a : α} (h : decode json = .ok a)
    (hnull : decode .null ≠ .ok a) : orNull decode json = .ok (some a) := by
  cases json with
  | null => exact absurd h hnull
  | bool | int | float | str | arr | obj => rw [orNull, h] <;> first | rfl | nofun

namespace ServerStatus

/-- A status that is merged into another one takes its place, since both have the same members. -/
theorem decode_mergedInto (s : ServerStatus) (target : Json) :
    decode (s.encode.mergedInto target) = .ok s.wholeSeconds := by
  cases target with
  | null | bool | int | float | str | arr | obj =>
      simp [encode, Json.mergedInto, Json.membersMergedInto, decode, fields, wholeSeconds,
        Except.mapError]

end ServerStatus

namespace Cluster

/-- The objects that a cluster holds, and the versions that it has given out so far. -/
structure Contents where
  object? (kind : Kind) (ns name : String) : Option kind.Object
  issued : Set String

namespace Contents

def find? (c : Contents) (key : Key) : Option key.kind.Object := c.object? key.kind key.ns key.name

def stored? (c : Contents) (kind : Kind) (o : kind.Object) : Option kind.Object :=
  c.object? kind (Key.of kind o).ns (Key.of kind o).name

/-- The object is stored in place of what was there, under a version that was never given out before. -/
structure Gains (c c' : Contents) (kind : Kind) (o : kind.Object) (version : String) : Prop where
  fresh : version ∉ c.issued
  issued : c'.issued = insert version c.issued
  stored : c'.stored? kind o = some (kind.withResourceVersion (kind.wholeSeconds o) (some version))
  others (key : Key) (h : Key.of kind o ≠ key) : c'.find? key = c.find? key

end Contents

def Exchange.Shows (x : Exchange) (kind : Kind) (o : kind.Object) : Prop :=
  ∃ response, x = .response response ∧ response.isFailure = false ∧ readObject kind response = .ok o

def Exchange.Refuses (x : Exchange) (code : UInt16) (reason : String) : Prop :=
  ∃ response, x = .response response ∧ response.status = code ∧ response.failure.code = code ∧
    response.failure.reason = reason

def Contents.Stores (c : Contents) (x : Exchange) (c' : Contents) (kind : Kind) (o : kind.Object) : Prop :=
  ∃ version, c.Gains c' kind o version ∧ x.Shows kind (kind.withResourceVersion o (some version))

/-- The server with the status of a patch merged into its own. -/
def patched (patch : Json) (live : McpServer) : Except DecodeError McpServer :=
  match patch.get? "status" with
  | none => .ok live
  | some status =>
      (Decode.orNull ServerStatus.decode
        (status.mergedInto (.orNull ServerStatus.encode live.status))).map fun status =>
          { live with status }

/-- The rules by which requests are responded to. Nothing is said of requests that no call is put as. -/
def Serves (c : Contents) (r : Request) (x : Exchange) (c' : Contents) : Prop :=
  match r with
  | ⟨.get, ⟨kind, ns, some name, false⟩, _, _⟩ =>
      match c.object? kind ns name with
      | some o => x.Shows kind o ∧ c' = c
      | none => x.Refuses 404 "NotFound" ∧ c' = c
  | ⟨.post, ⟨kind, ns, none, false⟩, _, some body⟩ =>
      ∀ o, kind.decode body = .ok o → (Key.of kind o).ns = ns →
        match c.stored? kind o with
        | some _ => x.Refuses 409 "AlreadyExists" ∧ c' = c
        | none => c.Stores x c' kind o
  | ⟨.put, ⟨kind, ns, some name, false⟩, _, some body⟩ =>
      ∀ o, kind.decode body = .ok o → Key.of kind o = ⟨kind, ns, name⟩ →
        match c.stored? kind o with
        | none => x.Refuses 404 "NotFound" ∧ c' = c
        | some live =>
            if kind.resourceVersion live = kind.resourceVersion o then c.Stores x c' kind o
            else x.Refuses 409 "Conflict" ∧ c' = c
  | ⟨.patch, ⟨.server, ns, some name, true⟩, _, some patch⟩ =>
      match c.object? .server ns name with
      | none => x.Refuses 404 "NotFound" ∧ c' = c
      | some live =>
          if Kind.server.resourceVersion live = Memory.versionOf patch then
            ∀ server, patched patch live = .ok server → c.Stores x c' .server server
          else x.Refuses 409 "Conflict" ∧ c' = c
  | _ => True

/-- How a call is answered by what a cluster holds. -/
def Contents.Answers (c : Contents) : (call : Call) → call.Answer → Contents → Prop
  | .get key, answer, c' => answer = .ok (c.find? key) ∧ c' = c
  | .create kind o, answer, c' =>
      match c.stored? kind o with
      | some _ => (∃ what, answer = .error (.alreadyExists what)) ∧ c' = c
      | none => (∃ p, answer = .ok p) ∧ ∃ version, c.Gains c' kind o version
  | .replace kind o, answer, c' =>
      match c.stored? kind o with
      | none => (∃ failure, answer = .error (.api failure)) ∧ c' = c
      | some live =>
          if kind.resourceVersion live = kind.resourceVersion o then
            (∃ p, answer = .ok p) ∧ ∃ version, c.Gains c' kind o version
          else (∃ what, answer = .error (.conflict what)) ∧ c' = c
  | .replaceStatus server, answer, c' =>
      match c.stored? .server server with
      | none => (∃ failure, answer = .error (.api failure)) ∧ c' = c
      | some live =>
          if Kind.server.resourceVersion live = Kind.server.resourceVersion server then
            (∃ p, answer = .ok p) ∧
              ∃ version, c.Gains c' .server { (live : McpServer) with status := server.status } version
          else (∃ what, answer = .error (.conflict what)) ∧ c' = c

namespace Contents

variable {c c' : Contents} {kind : Kind} {o p : kind.Object} {version : String}

theorem stored?_congr (h : Key.of kind p = Key.of kind o) : c.stored? kind p = c.stored? kind o := by
  rw [stored?, stored?, h]

theorem stored?_wholeSeconds (o : kind.Object) : c.stored? kind (kind.wholeSeconds o) = c.stored? kind o :=
  stored?_congr (Key.of_wholeSeconds kind o)

theorem Gains.find? (h : c.Gains c' kind p version) (hkey : Key.of kind p = Key.of kind o) :
    c'.find? (Key.of kind o) = some (kind.withResourceVersion (kind.wholeSeconds p) (some version)) :=
  (stored?_congr hkey.symm).trans h.stored

theorem Gains.congr (h : c.Gains c' kind p version) (hsame : kind.wholeSeconds p = kind.wholeSeconds o) :
    c.Gains c' kind o version := by
  have hkey : Key.of kind p = Key.of kind o := by
    rw [← Key.of_wholeSeconds kind p, hsame, Key.of_wholeSeconds]
  refine ⟨h.fresh, h.issued, ?_, fun key hne => h.others key (hkey ▸ hne)⟩
  rw [← stored?_congr hkey, h.stored, hsame]

end Contents

section

variable {x : Exchange} {kind : Kind}

theorem Exchange.Shows.objectOf {o : kind.Object} (h : x.Shows kind o) (timeout : String) :
    objectOf kind (x.outcome timeout) = .ok o := by
  obtain ⟨response, rfl, hsuccess, hread⟩ := h
  rw [Exchange.outcome, hsuccess]
  exact hread

theorem Exchange.Shows.optionalObjectOf {o : kind.Object} (h : x.Shows kind o) (timeout : String) :
    optionalObjectOf kind (x.outcome timeout) = .ok (some o) := by
  obtain ⟨response, rfl, hsuccess, hread⟩ := h
  rw [Exchange.outcome, hsuccess]
  exact congrArg (Except.map some) hread

variable {code : UInt16} {reason : String}

theorem Exchange.Refuses.outcome (h : x.Refuses code reason) (hcode : 400 ≤ code ∧ code < 600)
    (timeout : String) :
    ∃ failure, x.outcome timeout = .refused failure ∧ failure.code = code ∧ failure.reason = reason := by
  obtain ⟨response, rfl, rfl, hfailure⟩ := h
  refine ⟨response.failure, ?_, hfailure⟩
  have hfails : response.isFailure = true := by
    rw [Response.isFailure, decide_eq_true hcode.1, decide_eq_true hcode.2]
    rfl
  rw [Exchange.outcome, hfails]
  rfl

theorem Exchange.Refuses.absent (h : x.Refuses 404 "NotFound") (timeout : String) :
    optionalObjectOf kind (x.outcome timeout) = .ok none := by
  obtain ⟨failure, houtcome, -, hreason⟩ := h.outcome (by decide) timeout
  rw [houtcome, Cluster.optionalObjectOf, if_pos hreason]

theorem Exchange.Refuses.notFound (h : x.Refuses 404 "NotFound") (timeout : String) :
    ∃ failure, objectOf kind (x.outcome timeout) = .error (.api failure) := by
  obtain ⟨failure, houtcome, hcode, -⟩ := h.outcome (by decide) timeout
  refine ⟨failure, ?_⟩
  rw [houtcome, Cluster.objectOf, StoreError.ofApi, hcode]
  rfl

theorem Exchange.Refuses.alreadyExists (h : x.Refuses 409 "AlreadyExists") (timeout : String) :
    ∃ what, objectOf kind (x.outcome timeout) = .error (.alreadyExists what) := by
  obtain ⟨failure, houtcome, hcode, hreason⟩ := h.outcome (by decide) timeout
  refine ⟨failure.message, ?_⟩
  rw [houtcome, Cluster.objectOf, StoreError.ofApi, if_pos hcode, if_pos hreason]

theorem Exchange.Refuses.conflict (h : x.Refuses 409 "Conflict") (timeout : String) :
    ∃ what, objectOf kind (x.outcome timeout) = .error (.conflict what) := by
  obtain ⟨failure, houtcome, hcode, hreason⟩ := h.outcome (by decide) timeout
  refine ⟨failure.message, ?_⟩
  rw [houtcome, Cluster.objectOf, StoreError.ofApi, if_pos hcode, hreason]
  rfl

end

section

variable {c c' : Contents} {x : Exchange} {kind : Kind} {o p : kind.Object} {manager : Option String}

theorem Contents.Stores.answers (h : c.Stores x c' kind p) (hsame : kind.wholeSeconds p = kind.wholeSeconds o)
    (timeout : String) :
    (∃ p, objectOf kind (x.outcome timeout) = .ok p) ∧ ∃ version, c.Gains c' kind o version := by
  obtain ⟨version, hgains, hshows⟩ := h
  exact ⟨⟨_, hshows.objectOf timeout⟩, version, hgains.congr hsame⟩

theorem answers_get {key : Key} {body : Option Json}
    (h : Serves c ⟨.get, ⟨key.kind, key.ns, some key.name, false⟩, manager, body⟩ x c') :
    c.Answers (.get key) (answerOf (.get key) x) c' := by
  rw [Serves] at h
  rw [Contents.Answers, answerOf, Contents.find?]
  cases hget : c.object? key.kind key.ns key.name with
  | none =>
      rw [hget] at h
      exact ⟨h.1.absent _, h.2⟩
  | some o =>
      rw [hget] at h
      exact ⟨h.1.optionalObjectOf _, h.2⟩

theorem answers_create
    (h : Serves c ⟨.post, ⟨kind, (Key.of kind o).ns, none, false⟩, manager, some (kind.encode o)⟩ x c') :
    c.Answers (.create kind o) (answerOf (.create kind o) x) c' := by
  have h := h (kind.wholeSeconds o) (Kind.decode_encode o) (by rw [Key.of_wholeSeconds])
  rw [Contents.stored?_wholeSeconds] at h
  rw [Contents.Answers, answerOf]
  cases hget : c.stored? kind o with
  | none =>
      rw [hget] at h
      exact h.answers (Kind.wholeSeconds_wholeSeconds o) _
  | some live =>
      rw [hget] at h
      exact ⟨h.1.alreadyExists _, h.2⟩

theorem answers_replace
    (h : Serves c ⟨.put, ⟨kind, (Key.of kind o).ns, some (Key.of kind o).name, false⟩, manager,
      some (kind.encode o)⟩ x c') : c.Answers (.replace kind o) (answerOf (.replace kind o) x) c' := by
  have h := h (kind.wholeSeconds o) (Kind.decode_encode o) (Key.of_wholeSeconds kind o)
  rw [Contents.stored?_wholeSeconds, Kind.resourceVersion_wholeSeconds] at h
  rw [Contents.Answers, answerOf]
  cases hget : c.stored? kind o with
  | none =>
      rw [hget] at h
      exact ⟨h.1.notFound _, h.2⟩
  | some live =>
      simp only [hget] at h
      dsimp only
      split at h
      · rename_i hversion
        rw [if_pos hversion]
        exact h.answers (Kind.wholeSeconds_wholeSeconds o) _
      · rename_i hversion
        rw [if_neg hversion]
        exact ⟨h.1.conflict _, h.2⟩

theorem versionOf_statusPatch (server : McpServer) (version : String) :
    Memory.versionOf (statusPatch server version) = some version := rfl

theorem patched_statusPatch (server : McpServer) (version : String) (live : McpServer) :
    patched (statusPatch server version) live =
      .ok { live with status := server.status.map ServerStatus.wholeSeconds } := by
  have hget : (statusPatch server version).get? "status" =
      some (.orNull ServerStatus.encode server.status) := rfl
  rw [patched, hget]
  cases server.status with
  | none => rfl
  | some status =>
      have hread := ServerStatus.decode_mergedInto status (.orNull ServerStatus.encode live.status)
      have horNull := Decode.orNull_of_ok hread nofun
      exact congrArg (Except.map fun status => ({ live with status } : McpServer)) horNull

theorem answers_replaceStatus {server : McpServer} {version : String}
    (hversion : Kind.server.resourceVersion server = some version)
    (h : Serves c ⟨.patch, ⟨.server, (Key.of .server server).ns, some (Key.of .server server).name, true⟩,
      manager, some (statusPatch server version)⟩ x c') :
    c.Answers (.replaceStatus server) (answerOf (.replaceStatus server) x) c' := by
  rw [Serves, versionOf_statusPatch, ← hversion] at h
  rw [Contents.Answers, answerOf, Contents.stored?]
  cases hget : c.object? .server (Key.of .server server).ns (Key.of .server server).name with
  | none =>
      rw [hget] at h
      exact ⟨h.1.notFound _, h.2⟩
  | some live =>
      simp only [hget] at h
      dsimp only
      split at h
      · rename_i hsame
        rw [if_pos hsame]
        have hstores := h _ (patched_statusPatch server version live)
        refine hstores.answers ?_ _
        change McpServer.wholeSeconds _ = McpServer.wholeSeconds _
        rw [McpServer.wholeSeconds, McpServer.wholeSeconds, Option.map_map]
        cases server.status with
        | none => rfl
        | some status =>
            rw [Option.map_some, Option.map_some, Function.comp_apply,
              Codec.kept_kept ServerStatus.encode ServerStatus.decode]
      · rename_i hsame
        rw [if_neg hsame]
        exact ⟨h.1.conflict _, h.2⟩

end

end Cluster
end McpOperator
