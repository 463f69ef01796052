import McpOperator.Proofs.Store.Succession
import Mathlib.Logic.Relation

namespace McpOperator

namespace SortedMap

variable {α : Type} (m : SortedMap α) (k : String) (v : α)

theorem erase_insert : (m.insert k v).erase k = m.erase k := by
  suffices hentries : ∀ es : List (String × α),
      ((insertEntry k v es).filter fun e => e.1 ≠ k) = es.filter fun e => e.1 ≠ k from
    SortedMap.mk.injEq .. |>.mpr (hentries m.entries)
  intro es
  induction es with
  | nil => simp [insertEntry]
  | cons e rest ih =>
      obtain ⟨l, w⟩ := e
      rw [insertEntry]
      split
      · rw [List.filter_cons_of_neg (by simp)]
      · split
        · rename_i hk
          rw [List.filter_cons_of_neg (by simp), List.filter_cons_of_neg (by simp [hk])]
        · rw [List.filter_cons, List.filter_cons, ih]

theorem erase_erase : (m.erase k).erase k = m.erase k := by
  apply SortedMap.mk.injEq .. |>.mpr
  simp [erase, List.filter_filter]

theorem insert_insert (w : α) : (m.insert k w).insert k v = m.insert k v := by
  rw [← insert_erase, erase_insert, insert_erase]

end SortedMap

@[simp] theorem Kind.withAnnotations_withAnnotations (kind : Kind) (o : kind.Object)
    (a b : Option StringMap) :
    kind.withAnnotations (kind.withAnnotations o a) b = kind.withAnnotations o b := by
  simp [withAnnotations]

namespace Json

def adjust (key : String) (f : Json → Option Json) : Json → Json
  | .obj members =>
      .obj (members.filterMap fun e => if e.1 = key then (f e.2).map (e.1, ·) else some e)
  | json => json

def unlessBare : Json → Option Json
  | .obj [] => none
  | json => some json

/-- The written form of an object without its version, without the digest among its annotations, and
without annotations if that leaves none of them. -/
def withoutBookkeeping (json : Json) : Json :=
  json.adjust "metadata" fun metadata =>
    some ((metadata.adjust "annotations" fun annotations =>
      (annotations.eraseMember Upsert.hashKey).unlessBare).adjust "resourceVersion" fun _ => none)

theorem adjust_record (key : String) (f : Json → Option Json) (fields : List (String × Option Json)) :
    (record fields).adjust key f =
      record (fields.map fun field => if field.1 = key then (field.1, field.2.bind f) else field) := by
  rw [record, record, adjust, Members.present, Members.present, List.filterMap_filterMap,
    List.filterMap_map]
  congr 1
  apply List.filterMap_congr
  intro field _
  rcases field with ⟨l, _ | json⟩
  · by_cases hl : l = key <;> simp [hl]
  · by_cases hl : l = key <;> simp [hl]

theorem unlessBare_ofStringMap (m : StringMap) :
    (ofStringMap m).unlessBare = ((some m).filter fun m => !m.isEmpty).map ofStringMap := by
  rcases m with ⟨_ | ⟨e, rest⟩, h⟩ <;> rfl

theorem eraseMember_ofStringMap (m : StringMap) (key : String) :
    (ofStringMap m).eraseMember key = ofStringMap (m.erase key) := by
  simp [ofStringMap, ofMap, eraseMember, SortedMap.erase, List.filter_map, Function.comp_def]

end Json

namespace Upsert

variable {kind : Kind} {o p : kind.Object}

/-- What writes do to an object besides what they are made for. -/
inductive Bookkeeping (kind : Kind) : kind.Object → kind.Object → Prop
  | version (o : kind.Object) (version : Option String) : Bookkeeping kind o (kind.withResourceVersion o version)
  | stamped (o : kind.Object) (hash : String) : Bookkeeping kind o (stamp kind o hash)
  | unstamped (o : kind.Object) :
      Bookkeeping kind o (kind.withAnnotations o ((kind.annotations o).map (·.erase hashKey)))
  | dropped (o : kind.Object) (h : kind.annotations o = some .empty) :
      Bookkeeping kind o (kind.withAnnotations o none)
  | made (o : kind.Object) (h : kind.annotations o = none) :
      Bookkeeping kind o (kind.withAnnotations o (some .empty))

theorem content_eq (o : kind.Object) : content kind o = kind.withMetadata o
    { kind.metadata o with
      annotations := withoutHash (kind.annotations o)
      resourceVersion := none } := by
  simp [content, Kind.withAnnotations, Kind.withResourceVersion]

theorem content_withResourceVersion (o : kind.Object) (version : Option String) :
    content kind (kind.withResourceVersion o version) = content kind o := by
  simp [content_eq, Kind.withResourceVersion, Kind.annotations]

theorem content_withAnnotations (o : kind.Object) {annotations : Option StringMap}
    (h : withoutHash annotations = withoutHash (kind.annotations o)) :
    content kind (kind.withAnnotations o annotations) = content kind o := by
  rw [content_eq, content_eq, Kind.annotations_withAnnotations, h]
  simp [Kind.withAnnotations]

theorem withoutHash_some (m : StringMap) :
    withoutHash (some m) = (some (m.erase hashKey)).filter fun m => !m.isEmpty := rfl

theorem withoutHash_stamped (annotations : Option StringMap) (hash : String) :
    withoutHash (some ((annotations.getD .empty).insert hashKey hash)) = withoutHash annotations := by
  cases annotations with
  | none => rfl
  | some m => rw [Option.getD_some, withoutHash_some, withoutHash_some, m.erase_insert]

theorem withoutHash_unstamped (annotations : Option StringMap) :
    withoutHash (annotations.map (·.erase hashKey)) = withoutHash annotations := by
  cases annotations with
  | none => rfl
  | some m => rw [Option.map_some, withoutHash_some, withoutHash_some, m.erase_erase]

theorem withoutHash_empty : withoutHash (some .empty) = withoutHash none := rfl

theorem Bookkeeping.content_eq (h : Bookkeeping kind o p) : content kind p = content kind o := by
  cases h with
  | version version => exact content_withResourceVersion o version
  | stamped hash => exact content_withAnnotations o (withoutHash_stamped _ hash)
  | unstamped => exact content_withAnnotations o (withoutHash_unstamped _)
  | dropped h => exact content_withAnnotations o (by rw [h, withoutHash_empty])
  | made h => exact content_withAnnotations o (by rw [h, withoutHash_empty])

theorem content_eq_of_bookkeeping (h : Relation.EqvGen (Bookkeeping kind) o p) :
    content kind o = content kind p := by
  induction h with
  | rel _ _ h => exact h.content_eq.symm
  | refl => rfl
  | symm _ _ _ ih => exact ih.symm
  | trans _ _ _ _ _ ih ih' => exact ih.trans ih'

/-- An object is brought to its content by taking out what writes have left. -/
theorem bookkeeping_content (o : kind.Object) : Relation.EqvGen (Bookkeeping kind) o (content kind o) := by
  have hversion : Relation.EqvGen (Bookkeeping kind)
      (kind.withAnnotations o (withoutHash (kind.annotations o))) (content kind o) :=
    .rel _ _ (.version _ none)
  refine .trans _ _ _ (.rel _ _ (.unstamped o)) (.trans _ _ _ ?_ hversion)
  cases hannotations : kind.annotations o with
  | none => exact .refl _
  | some m =>
      rw [Option.map_some, withoutHash_some]
      by_cases hempty : (m.erase hashKey).isEmpty = true
      · rw [SortedMap.eq_empty_of_isEmpty hempty]
        have hdropped := Bookkeeping.dropped (kind.withAnnotations o (some .empty))
          (Kind.annotations_withAnnotations ..)
        rw [Kind.withAnnotations_withAnnotations] at hdropped
        exact .rel _ _ hdropped
      · rw [Option.filter_some_pos (by simpa using hempty)]
        exact .refl _

theorem bookkeeping_iff :
    Relation.EqvGen (Bookkeeping kind) o p ↔ content kind o = content kind p := by
  refine ⟨content_eq_of_bookkeeping, fun h => ?_⟩
  exact .trans _ _ _ (bookkeeping_content o) (h ▸ .symm _ _ (bookkeeping_content p))

theorem withoutBookkeeping_metadata (m : ObjectMeta) :
    (m.encode.adjust "annotations" fun annotations =>
      (annotations.eraseMember hashKey).unlessBare).adjust "resourceVersion" (fun _ => none) =
    { m with annotations := withoutHash m.annotations, resourceVersion := none }.encode := by
  have hannotations : ((m.annotations.map Json.ofStringMap).bind fun annotations =>
      (annotations.eraseMember hashKey).unlessBare) =
        (withoutHash m.annotations).map Json.ofStringMap := by
    cases m.annotations with
    | none => rfl
    | some a =>
        rw [Option.map_some, Option.bind_some, Json.eraseMember_ofStringMap,
          Json.unlessBare_ofStringMap, withoutHash_some]
  simp [ObjectMeta.encode, Json.adjust_record, hannotations]

theorem withoutBookkeeping_encode (o : kind.Object) :
    (kind.encode o).withoutBookkeeping = kind.encode (content kind o) := by
  rw [content_eq]
  cases kind
  all_goals
    simp [Json.withoutBookkeeping, Kind.encode, McpServer.encode, Deployment.encode, Service.encode,
      ConfigMap.encode, Secret.encode, Json.adjust_record, withoutBookkeeping_metadata, Kind.withMetadata,
      Kind.metadata, Kind.annotations]

theorem appliedHash_of_content (h : content kind o = content kind p) :
    appliedHash kind o = appliedHash kind p := by
  rw [appliedHash, appliedHash, h]

theorem withoutBookkeeping_eq_iff :
    (kind.encode o).withoutBookkeeping = (kind.encode p).withoutBookkeeping ↔ text kind o = text kind p := by
  rw [withoutBookkeeping_encode, withoutBookkeeping_encode]
  exact ⟨fun h => congrArg Json.compact h, Kind.encode_eq_of_compact⟩

theorem content_wholeSeconds (o : kind.Object) :
    content kind (kind.wholeSeconds o) = kind.wholeSeconds (content kind o) := by
  rw [content_eq, content_eq, Kind.annotations_wholeSeconds]
  cases kind <;> rfl

theorem text_wholeSeconds (o : kind.Object) : text kind (kind.wholeSeconds o) = text kind o := by
  rw [text, content_wholeSeconds, Kind.encode_wholeSeconds, text]

theorem desired_desired (o : kind.Object) : desired kind (desired kind o) = desired kind o := by
  have hhash : appliedHash kind (desired kind o) = appliedHash kind o :=
    appliedHash_of_content (Bookkeeping.stamped o _).content_eq
  rw [desired, hhash, desired, stamp, stamp, Kind.annotations_withAnnotations, Option.getD_some,
    SortedMap.insert_insert, Kind.withAnnotations_withAnnotations]

end Upsert

open Upsert in
/-- The digest does not show what writes leave behind on an object, and shows everything else that is
written of it. -/
theorem digest_covers_content {kind : Kind} {o p : kind.Object}
    (hdigests : Sha256.ofText (text kind o) = Sha256.ofText (text kind p) → text kind o = text kind p) :
    (∀ q, Relation.EqvGen (Bookkeeping kind) o q → appliedHash kind q = appliedHash kind o) ∧
      (appliedHash kind o = appliedHash kind p ↔
        (kind.encode o).withoutBookkeeping = (kind.encode p).withoutBookkeeping) ∧
      (appliedHash kind o = appliedHash kind p ↔
        Relation.EqvGen (Bookkeeping kind) (kind.wholeSeconds o) (kind.wholeSeconds p)) ∧
      stamp kind (stamp kind o (appliedHash kind o)) (appliedHash kind (stamp kind o (appliedHash kind o))) =
        stamp kind o (appliedHash kind o) := by
  have htext : appliedHash kind o = appliedHash kind p ↔ text kind o = text kind p := by
    rw [appliedHash_eq, appliedHash_eq]
    exact ⟨hdigests, congrArg Sha256.ofText⟩
  refine ⟨fun q h => appliedHash_of_content (bookkeeping_iff.1 h).symm,
    htext.trans withoutBookkeeping_eq_iff.symm, htext.trans ⟨fun h => ?_, fun h => ?_⟩, desired_desired o⟩
  · rw [bookkeeping_iff, content_wholeSeconds, content_wholeSeconds]
    exact Kind.wholeSeconds_eq_of_compact h
  · rw [← text_wholeSeconds, text, bookkeeping_iff.1 h]
    exact text_wholeSeconds p

namespace Upsert

def storedNote : ConfigMap :=
  Kind.configMap.withResourceVersion (stamp .configMap (note "second" none) "5f2b") (some "42")

theorem bookkeeping_storedNote :
    Relation.EqvGen (Bookkeeping .configMap) (note "second" none) storedNote :=
  .trans _ _ _ (.rel _ _ (@Bookkeeping.stamped .configMap (note "second" none) "5f2b"))
    (.rel _ _ (.version _ (some "42")))

end Upsert

open Upsert in
theorem digest_covers_content_notes :
    appliedHash .configMap storedNote = appliedHash .configMap (note "second" none) ∧
      appliedHash .configMap (note "first" none) ≠ appliedHash .configMap storedNote := by
  have hdigests : Sha256.ofText (text .configMap (note "first" none)) =
      Sha256.ofText (text .configMap storedNote) →
        text .configMap (note "first" none) = text .configMap storedNote := by
    decide +kernel
  constructor
  · have hself := @digest_covers_content .configMap (note "second" none) (note "second" none) fun _ => rfl
    exact hself.1 storedNote bookkeeping_storedNote
  · intro h
    have hwritten := (digest_covers_content hdigests).2.1.1 h
    exact absurd hwritten (by decide +kernel)

end McpOperator
