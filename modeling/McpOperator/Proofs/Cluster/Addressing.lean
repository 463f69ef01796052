import McpOperator.Cluster.Request
import Mathlib.Data.String.Basic

namespace McpOperator

namespace Uri

def isPathText (s : String) : Bool := s.toList.all isPathChar

@[simp] theorem isPathText_append (s t : String) : isPathText (s ++ t) = (isPathText s && isPathText t) := by
  rw [isPathText, String.toList_append, List.all_append]
  rfl

theorem isSome_query {cs : List Char} (h : cs.all isQueryChar = true) : (query? cs).isSome = true := by
  induction cs with
  | nil => rfl
  | cons c rest ih =>
      rw [List.all_cons, Bool.and_eq_true] at h
      have hhash : c ≠ '#' := by
        rintro rfl
        exact absurd h.1 (by decide)
      rw [query?, if_pos h.1, Option.isSome_map]
      · exact ih h.2
      · exact hhash

theorem isSome_pathAndQuery_append {cs : List Char} (h : cs.all isPathChar = true) (rest : List Char) :
    (pathAndQuery? (cs ++ rest)).isSome = (pathAndQuery? rest).isSome := by
  induction cs with
  | nil => rfl
  | cons c cs ih =>
      rw [List.all_cons, Bool.and_eq_true] at h
      have hquestion : c ≠ '?' := by
        rintro rfl
        exact absurd h.1 (by decide)
      have hhash : c ≠ '#' := by
        rintro rfl
        exact absurd h.1 (by decide)
      rw [List.cons_append, pathAndQuery?, if_pos h.1, Option.isSome_map]
      · exact ih h.2
      · exact hquestion
      · exact hhash

end Uri

theorem ByteArray.length_toList_loop (bytes : ByteArray) (i : Nat) (before : List UInt8) :
    (ByteArray.toList.loop bytes i before).length = before.length + (bytes.size - i) := by
  fun_induction ByteArray.toList.loop bytes i before with
  | case1 i before h ih =>
      rw [ih, List.length_cons]
      omega
  | case2 i before h =>
      rw [List.length_reverse]
      omega

namespace Cluster

/-- A name and a namespace that a location can hold, and that are no longer than it can be. -/
structure Addressable (key : Key) : Prop where
  name_ne_empty : key.name ≠ ""
  name_text : Uri.isPathText key.name = true
  ns_text : Uri.isPathText key.ns = true
  short : key.ns.utf8ByteSize + key.name.utf8ByteSize ≤ 65000

def IsManager (manager : String) : Prop := manager.utf8ByteSize ≤ 128

instance (manager : String) : Decidable (IsManager manager) :=
  inferInstanceAs (Decidable (_ ≤ _))

namespace Request

theorem formByte_spec (b : UInt8) : (formByte b).length ≤ 3 ∧ (formByte b).all Uri.isQueryChar = true ∧
    (formByte b).all (fun c => c.utf8Size = 1) = true := by
  have hall : (List.range 256).all (fun n =>
      let written := formByte (UInt8.ofNat n)
      written.length ≤ 3 && written.all Uri.isQueryChar && written.all fun c => c.utf8Size = 1) = true := by
    decide +kernel
  have hb := List.all_eq_true.1 hall b.toNat (List.mem_range.2 b.toNat_lt)
  simp only [UInt8.ofNat_toNat, Bool.and_eq_true, decide_eq_true_eq] at hb
  exact ⟨hb.1.1, hb.1.2, hb.2⟩

theorem utf8ByteSize_formBytes (bytes : List UInt8) :
    (String.ofList (bytes.flatMap formByte)).utf8ByteSize ≤ 3 * bytes.length := by
  have hsize : ∀ {cs : List Char}, cs.all (fun c => c.utf8Size = 1) = true →
      String.utf8Len cs = cs.length := by
    intro cs h
    induction cs with
    | nil => rfl
    | cons c rest ih =>
        rw [List.all_cons, Bool.and_eq_true, decide_eq_true_eq] at h
        rw [String.utf8Len_cons, ih h.2, h.1, List.length_cons]
  rw [String.utf8ByteSize_ofList]
  induction bytes with
  | nil => exact Nat.zero_le _
  | cons b rest ih =>
      obtain ⟨hlength, -, hchars⟩ := formByte_spec b
      rw [List.flatMap_cons, String.utf8Len_append, hsize hchars, List.length_cons]
      omega

theorem utf8ByteSize_formEncode (s : String) : (formEncode s).utf8ByteSize ≤ 3 * s.utf8ByteSize := by
  have h := utf8ByteSize_formBytes s.toUTF8.toList
  have hlength : s.toUTF8.toList.length = s.utf8ByteSize := by
    rw [ByteArray.toList, ByteArray.length_toList_loop]
    exact (Nat.zero_add _).trans (Nat.sub_zero _)
  rwa [hlength] at h

theorem formEncode_chars (s : String) : (formEncode s).toList.all Uri.isQueryChar = true := by
  rw [formEncode, String.toList_ofList, List.all_flatMap, List.all_eq_true]
  exact fun b _ => (formByte_spec b).2.1

end Request

namespace Target

structure IsPlain (t : Target) : Prop where
  ns_text : Uri.isPathText t.ns = true
  name_text : ∀ name ∈ t.name, Uri.isPathText name = true
  short : t.ns.utf8ByteSize + (t.name.map String.utf8ByteSize).getD 0 ≤ 65000

variable {t : Target}

theorem utf8ByteSize_path (t : Target) :
    t.path.utf8ByteSize ≤ t.ns.utf8ByteSize + (t.name.map String.utf8ByteSize).getD 0 + 57 := by
  obtain ⟨kind, ns, name, status⟩ := t
  have hroot : (root kind).utf8ByteSize ≤ 26 := by
    cases kind <;> decide
  have hplural : kind.plural.utf8ByteSize ≤ 11 := by
    cases kind <;> decide
  have hstatus : (if status then "/status" else "").utf8ByteSize ≤ 7 := by
    cases status <;> decide
  have hwords : "namespaces/".utf8ByteSize = 11 ∧ "/".utf8ByteSize = 1 ∧ "".utf8ByteSize = 0 := by decide
  cases name with
  | none | some name =>
      simp only [path, String.utf8ByteSize_append, Option.map_none, Option.map_some, Option.getD_none,
        Option.getD_some]
      omega

theorem IsPlain.path_text (h : t.IsPlain) : Uri.isPathText t.path = true := by
  obtain ⟨kind, ns, name, status⟩ := t
  have hroot : Uri.isPathText (root kind) = true := by
    cases kind <;> decide
  have hplural : Uri.isPathText kind.plural = true := by
    cases kind <;> decide
  have hstatus : Uri.isPathText (if status then "/status" else "") = true := by
    cases status <;> decide
  have hwords : Uri.isPathText "namespaces/" = true ∧ Uri.isPathText "/" = true ∧
      Uri.isPathText "" = true := by
    decide
  have hns : Uri.isPathText ns = true := h.ns_text
  cases name with
  | none => simp [path, hroot, hplural, hstatus, hwords, hns]
  | some name => simp [path, hroot, hplural, hstatus, hwords, hns, h.name_text name rfl]

end Target

namespace Request

variable (method : Method) {target : Target} (htarget : target.IsPlain) (fieldManager : Option String)
  (body : Option Json)

include htarget

theorem short_location (hmanager : fieldManager.all IsManager = true) :
    (location ⟨method, target, fieldManager, body⟩).utf8ByteSize ≤ Uri.maxBytes := by
  have hpath := Target.utf8ByteSize_path target
  have hshort := htarget.short
  have hwords : "?&fieldManager=".utf8ByteSize = 15 ∧ "".utf8ByteSize = 0 ∧ Uri.maxBytes = 65534 := by decide
  cases fieldManager with
  | none =>
      simp only [location, String.utf8ByteSize_append]
      omega
  | some manager =>
      have hform := utf8ByteSize_formEncode manager
      have hsize : manager.utf8ByteSize ≤ 128 := of_decide_eq_true hmanager
      simp only [location, String.utf8ByteSize_append]
      omega

theorem isSome_uri : (uri? ⟨method, target, fieldManager, body⟩).isSome = true := by
  rw [uri?, Option.isSome_map, location, String.toList_append,
    Uri.isSome_pathAndQuery_append htarget.path_text]
  cases fieldManager with
  | none => rfl
  | some manager =>
      have hquery : ("?&fieldManager=" ++ formEncode manager).toList =
          '?' :: ("&fieldManager=".toList ++ (formEncode manager).toList) := String.toList_append
      have hword : "&fieldManager=".toList.all Uri.isQueryChar = true := by decide
      rw [hquery, Uri.pathAndQuery?, Option.isSome_map]
      apply Uri.isSome_query
      rw [List.all_append, hword, formEncode_chars manager]
      rfl

theorem checked_eq (hmanager : fieldManager.all IsManager = true) :
    checked ⟨method, target, fieldManager, body⟩ = .ok ⟨method, target, fieldManager, body⟩ := by
  obtain ⟨text, htext⟩ := Option.isSome_iff_exists.1 (isSome_uri method htarget fieldManager body)
  have hshort := short_location method htarget fieldManager body hmanager
  rw [checked, if_neg (Nat.not_lt.2 hshort), htext]

end Request

theorem Addressable.isPlain {key : Key} (h : Addressable key) (kind : Kind) (status : Bool) :
    Target.IsPlain ⟨kind, key.ns, some key.name, status⟩ where
  ns_text := h.ns_text
  name_text := by
    rintro name ⟨⟩
    exact h.name_text
  short := h.short

theorem Addressable.isPlain_all {key : Key} (h : Addressable key) (kind : Kind) :
    Target.IsPlain ⟨kind, key.ns, none, false⟩ where
  ns_text := h.ns_text
  name_text := nofun
  short := Nat.le_trans (Nat.add_le_add_left (Nat.zero_le _) _) h.short

section

variable {manager : String} {kind : Kind} {o : kind.Object}

theorem ok_bind {α β : Type} (a : α) (f : α → Except StoreError β) : (Except.ok a >>= f) = f a := rfl

theorem requireName_eq {key : Key} (h : Addressable key) : requireName key.name = .ok () :=
  if_neg h.name_ne_empty

theorem requireManager_eq (h : IsManager manager) (parameters : String) :
    requireManager manager parameters = .ok () :=
  if_neg (Nat.not_lt.2 h)

theorem ofCall_get (manager : String) {key : Key} (h : Addressable key) :
    Request.ofCall manager (.get key) =
      .ok ⟨.get, ⟨key.kind, key.ns, some key.name, false⟩, none, none⟩ := by
  rw [Request.ofCall, requireName_eq h, ok_bind,
    Request.checked_eq .get (h.isPlain key.kind false) none none rfl]

theorem ofCall_create (hmanager : IsManager manager) (h : Addressable (Key.of kind o)) :
    Request.ofCall manager (.create kind o) =
      .ok ⟨.post, ⟨kind, (Key.of kind o).ns, none, false⟩, some manager, some (kind.encode o)⟩ := by
  rw [Request.ofCall, requireManager_eq hmanager, ok_bind,
    Request.checked_eq .post (h.isPlain_all kind) (some manager) _ (decide_eq_true hmanager)]

theorem ofCall_replace (hmanager : IsManager manager) (h : Addressable (Key.of kind o)) :
    Request.ofCall manager (.replace kind o) =
      .ok ⟨.put, ⟨kind, (Key.of kind o).ns, some (Key.of kind o).name, false⟩, some manager,
        some (kind.encode o)⟩ := by
  rw [Request.ofCall, requireName_eq h, ok_bind,
    Request.checked_eq .put (h.isPlain kind false) (some manager) _ (decide_eq_true hmanager)]

theorem ofCall_replaceStatus (hmanager : IsManager manager) {server : McpServer} {version : String}
    (hversion : server.metadata.resourceVersion = some version)
    (h : Addressable (Key.of .server server)) :
    Request.ofCall manager (.replaceStatus server) =
      .ok ⟨.patch, ⟨.server, (Key.of .server server).ns, some (Key.of .server server).name, true⟩,
        some manager, some (statusPatch server version)⟩ := by
  simp only [Request.ofCall, hversion, ok_bind]
  rw [requireName_eq h, ok_bind, requireManager_eq hmanager, ok_bind,
    Request.checked_eq .patch (h.isPlain .server true) (some manager) _ (decide_eq_true hmanager)]

end

end Cluster
end McpOperator
