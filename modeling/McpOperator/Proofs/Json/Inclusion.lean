import McpOperator.Proofs.Json.Additions
import Mathlib.Data.List.Nodup
import Mathlib.Data.List.Perm.Basic

namespace McpOperator

namespace Members

variable {members : Members} {key : String}

theorem mem_keys_iff : key ∈ members.map Prod.fst ↔ ∃ json, members.lookup key = some json := by
  rw [← Option.isSome_iff_exists, List.lookup_isSome_iff, List.mem_map]
  constructor
  · rintro ⟨e, he, rfl⟩
    exact ⟨e, he, beq_self_eq_true _⟩
  · rintro ⟨e, he, hkey⟩
    exact ⟨e, he, (eq_of_beq hkey).symm⟩

end Members

namespace Json

/-- From a tree to one of those right below it. -/
inductive Step where
  | key (name : String)
  | position (i : Nat)

def child? : Json → Step → Option Json
  | .obj members, .key name => members.lookup name
  | .arr items, .position i => items[i]?
  | _, _ => none

def along? (json : Json) : List Step → Option Json
  | [] => some json
  | step :: rest => (json.child? step).bind fun child => child.along? rest

/-- The same scalar, lists of the same length, or objects. -/
inductive SameShape : Json → Json → Prop
  | null : SameShape null null
  | bool (b) : SameShape (bool b) (bool b)
  | int (n) : SameShape (int n) (int n)
  | float {d e : Decimal} (h : d.double = e.double) : SameShape (float d) (float e)
  | str (s) : SameShape (str s) (str s)
  | arr {as bs : List Json} (h : as.length = bs.length) : SameShape (arr as) (arr bs)
  | obj (ms ns) : SameShape (obj ms) (obj ns)

/-- At each place of the one tree the other has a value of the same shape. -/
def Within (desired live : Json) : Prop :=
  ∀ path json, desired.along? path = some json →
    ∃ other, live.along? path = some other ∧ SameShape json other

/-- The same tree but for the order of the members of its objects. -/
inductive Reordered : Json → Json → Prop
  | null : Reordered null null
  | bool (b) : Reordered (bool b) (bool b)
  | int (n) : Reordered (int n) (int n)
  | float {d e : Decimal} (h : d.double = e.double) : Reordered (float d) (float e)
  | str (s) : Reordered (str s) (str s)
  | arr {as bs : List Json} (hlength : as.length = bs.length)
      (h : ∀ (i : Nat) (a b : Json), as[i]? = some a → bs[i]? = some b → Reordered a b) :
      Reordered (arr as) (arr bs)
  | obj {ms ns : Members} (hkeys : (ms.map Prod.fst).Perm (ns.map Prod.fst))
      (h : ∀ (key : String) (a b : Json), ms.lookup key = some a → ns.lookup key = some b →
        Reordered a b) :
      Reordered (obj ms) (obj ns)

variable {d l : Json}

theorem Distinct.child (h : d.Distinct) (step : Step) {child : Json} (hchild : d.child? step = some child) :
    child.Distinct := by
  cases h with
  | arr h =>
      cases step with
      | position i => exact h child (List.mem_of_getElem? hchild)
      | key name => cases hchild
  | obj hkeys h =>
      cases step with
      | key name => exact h _ (Members.mem_of_lookup hchild)
      | position i => cases hchild
  | null | bool | int | float | str => cases step <;> cases hchild

theorem agrees_iff_sameShape (ho : ∀ ms, d ≠ obj ms) (ha : ∀ js, d ≠ arr js) :
    d.agrees l = true ↔ SameShape d l := by
  constructor
  · intro h
    cases d with
    | obj ms => exact absurd rfl (ho ms)
    | arr js => exact absurd rfl (ha js)
    | float x =>
        cases l with
        | float y => exact .float (by simpa [agrees] using h)
        | null | bool | int | str | arr | obj => simp [agrees, beq] at h
    | null | bool | int | str =>
        cases eq_of_beq h
        constructor
  · intro h
    cases h with
    | float h => simp [agrees, h]
    | null | bool | int | str => exact agrees_self _
    | arr => exact absurd rfl (ha _)
    | obj => exact absurd rfl (ho _)

theorem sameShape_of_isSubset (h : d.isSubset l = true) : SameShape d l := by
  cases d with
  | arr items =>
      cases l with
      | arr others =>
          rw [isSubset, itemsSubset_iff] at h
          exact .arr h.length_eq
      | null | bool | int | float | str | obj => simp [isSubset, agrees, beq] at h
  | obj members =>
      cases l with
      | obj others => exact .obj _ _
      | null | bool | int | float | str | arr => simp [isSubset, agrees, beq] at h
  | null | bool | int | float | str =>
      rw [isSubset_scalar (by simp) (by simp)] at h
      exact (agrees_iff_sameShape (by simp) (by simp)).1 h

theorem child?_of_isSubset (h : d.isSubset l = true) (step : Step) {child : Json}
    (hchild : d.child? step = some child) :
    ∃ other, l.child? step = some other ∧ child.isSubset other = true := by
  have hshape := sameShape_of_isSubset h
  cases hshape with
  | arr =>
      cases step with
      | key name => cases hchild
      | position i =>
          rw [isSubset] at h
          exact getElem?_of_itemsSubset h hchild
  | obj =>
      cases step with
      | position i => cases hchild
      | key name =>
          rw [isSubset, membersSubset_iff] at h
          exact h (name, child) (Members.mem_of_lookup hchild)
  | null | bool | int | float | str => cases step <;> cases hchild

theorem isSubset_of_children (hd : d.Distinct) (hshape : SameShape d l)
    (h : ∀ step child, d.child? step = some child →
      ∃ other, l.child? step = some other ∧ child.isSubset other = true) : d.isSubset l = true := by
  cases hshape with
  | @arr items others hlength =>
      rw [isSubset, itemsSubset_iff, List.forall₂_iff_get]
      refine ⟨hlength, fun i hi hi' => ?_⟩
      obtain ⟨other, hother, hchild⟩ := h (.position i) items[i] (List.getElem?_eq_getElem hi)
      have hget : others[i]? = some other := hother
      rw [List.getElem?_eq_getElem hi'] at hget
      cases hget
      exact hchild
  | @obj members others =>
      cases hd with
      | obj hkeys hmembers =>
          rw [isSubset, membersSubset_iff]
          exact fun e he => h (.key e.1) e.2 (Members.lookup_of_mem hkeys he)
  | float heq =>
      rw [isSubset_scalar (by simp) (by simp)]
      exact (agrees_iff_sameShape (by simp) (by simp)).2 (.float heq)
  | null | bool | int | str => exact isSubset_refl hd

theorem within_of_isSubset (h : d.isSubset l = true) : Within d l := by
  intro path
  induction path generalizing d l with
  | nil =>
      rintro json ⟨⟩
      exact ⟨l, rfl, sameShape_of_isSubset h⟩
  | cons step rest ih =>
      intro json hjson
      obtain ⟨child, hchild, hrest⟩ := Option.bind_eq_some_iff.1 hjson
      obtain ⟨other, hother, hsub⟩ := child?_of_isSubset h step hchild
      rw [along?, hother]
      exact ih hsub json hrest

theorem Within.sameShape (h : Within d l) : SameShape d l := by
  obtain ⟨other, hother, hshape⟩ := h [] d rfl
  cases hother
  exact hshape

theorem Within.child (h : Within d l) {step : Step} {child : Json} (hchild : d.child? step = some child) :
    ∃ other, l.child? step = some other ∧ Within child other := by
  obtain ⟨other, hother, -⟩ := h [step] child (by rw [along?, hchild]; rfl)
  obtain ⟨below, hbelow, heq⟩ := Option.bind_eq_some_iff.1 hother
  cases heq
  refine ⟨other, hbelow, fun path json hjson => ?_⟩
  have hpath := h (step :: path) json (by rw [along?, hchild]; exact hjson)
  rwa [along?, hbelow] at hpath

theorem isSubset_of_within (hd : d.Distinct) (h : Within d l) : d.isSubset l = true := by
  induction hd generalizing l with
  | @arr items hitems ih =>
      refine isSubset_of_children (.arr hitems) h.sameShape fun step child hchild => ?_
      obtain ⟨other, hother, hbelow⟩ := h.child hchild
      cases step with
      | position i => exact ⟨other, hother, ih child (List.mem_of_getElem? hchild) hbelow⟩
      | key name => cases hchild
  | @obj members hkeys hmembers ih =>
      refine isSubset_of_children (.obj hkeys hmembers) h.sameShape fun step child hchild => ?_
      obtain ⟨other, hother, hbelow⟩ := h.child hchild
      cases step with
      | key name => exact ⟨other, hother, ih (name, child) (Members.mem_of_lookup hchild) hbelow⟩
      | position i => cases hchild
  | null | bool | int | float | str =>
      refine isSubset_of_children (by constructor) h.sameShape ?_
      rintro (name | i) child ⟨⟩

theorem SameShape.trans {a b c : Json} (h : SameShape a b) (h' : SameShape b c) : SameShape a c := by
  cases h with
  | float h => cases h' with | float h' => exact .float (h.trans h')
  | arr h => cases h' with | arr h' => exact .arr (h.trans h')
  | obj => cases h' with | obj => exact .obj _ _
  | null | bool | int | str => exact h'

theorem Within.trans {a b c : Json} (h : Within a b) (h' : Within b c) : Within a c := by
  intro path json hjson
  obtain ⟨other, hother, hshape⟩ := h path json hjson
  obtain ⟨third, hthird, hshape'⟩ := h' path other hother
  exact ⟨third, hthird, hshape.trans hshape'⟩

theorem isSubset_trans {m : Json} (hd : d.Distinct) (h : d.isSubset l = true) (h' : l.isSubset m = true) :
    d.isSubset m = true :=
  isSubset_of_within hd ((within_of_isSubset h).trans (within_of_isSubset h'))

theorem children_of_mutual (h : d.isSubset l = true) (h' : l.isSubset d = true) (step : Step)
    {a b : Json} (ha : d.child? step = some a) (hb : l.child? step = some b) :
    a.isSubset b = true ∧ b.isSubset a = true := by
  obtain ⟨b', hb', hab⟩ := child?_of_isSubset h step ha
  obtain ⟨a', ha', hba⟩ := child?_of_isSubset h' step hb
  cases hb.symm.trans hb'
  cases ha.symm.trans ha'
  exact ⟨hab, hba⟩

theorem mem_keys_of_isSubset {ms ns : Members} (h : (obj ms).isSubset (obj ns) = true) {key : String}
    (hkey : key ∈ ms.map Prod.fst) : key ∈ ns.map Prod.fst := by
  obtain ⟨json, hjson⟩ := Members.mem_keys_iff.1 hkey
  obtain ⟨other, hother, -⟩ := child?_of_isSubset h (.key key) hjson
  exact Members.mem_keys_iff.2 ⟨other, hother⟩

theorem reordered_of_isSubset (hd : d.Distinct) (hl : l.Distinct) (h : d.isSubset l = true)
    (h' : l.isSubset d = true) : Reordered d l := by
  induction hd generalizing l with
  | @arr items hitems ih =>
      cases sameShape_of_isSubset h with
      | @arr _ others hlength =>
          refine .arr hlength fun i a b ha hb => ?_
          obtain ⟨hab, hba⟩ := children_of_mutual h h' (.position i) ha hb
          exact ih a (List.mem_of_getElem? ha) (hl.child (.position i) hb) hab hba
  | @obj ms hkeys hmembers ih =>
      cases sameShape_of_isSubset h with
      | obj _ ns =>
          have hperm : (ms.map Prod.fst).Perm (ns.map Prod.fst) := by
            cases hl with
            | obj hkeys' _ =>
                exact (List.perm_ext_iff_of_nodup hkeys hkeys').2 fun key =>
                  ⟨mem_keys_of_isSubset h, mem_keys_of_isSubset h'⟩
          refine .obj hperm fun key a b ha hb => ?_
          obtain ⟨hab, hba⟩ := children_of_mutual h h' (.key key) ha hb
          exact ih (key, a) (Members.mem_of_lookup ha) (hl.child (.key key) hb) hab hba
  | float =>
      cases sameShape_of_isSubset h with
      | float heq => exact .float heq
  | null | bool | int | str =>
      cases sameShape_of_isSubset h
      constructor

theorem Reordered.symm (h : Reordered d l) : Reordered l d := by
  induction h with
  | float h => exact .float h.symm
  | arr hlength _ ih => exact .arr hlength.symm fun i a b ha hb => ih i b a hb ha
  | obj hkeys _ ih => exact .obj hkeys.symm fun key a b ha hb => ih key b a hb ha
  | null | bool | int | str => constructor

theorem Reordered.isSubset (h : Reordered d l) (hd : d.Distinct) : d.isSubset l = true := by
  induction h with
  | @arr as bs hlength _ ih =>
      refine isSubset_of_children hd (.arr hlength) fun step a ha => ?_
      cases step with
      | key name => cases ha
      | position i =>
          have hi : i < bs.length := hlength ▸ (List.getElem?_eq_some_iff.1 ha).1
          exact ⟨bs[i], List.getElem?_eq_getElem hi,
            ih i a bs[i] ha (List.getElem?_eq_getElem hi) (hd.child (.position i) ha)⟩
  | @obj ms ns hkeys _ ih =>
      refine isSubset_of_children hd (.obj ms ns) fun step a ha => ?_
      cases step with
      | position i => cases ha
      | key name =>
          have hmem : name ∈ ns.map Prod.fst :=
            hkeys.subset (Members.mem_keys_iff.2 ⟨a, ha⟩)
          obtain ⟨b, hb⟩ := Members.mem_keys_iff.1 hmem
          exact ⟨b, hb, ih name a b ha hb (hd.child (.key name) ha)⟩
  | float h =>
      refine isSubset_of_children hd (.float h) ?_
      rintro (name | i) child ⟨⟩
  | null | bool | int | str => exact isSubset_refl hd

/-- Of trees in which no object binds a key twice, one holds what another sets exactly when it has at each
place of that other a value of the same shape. This is a partial order, and it is kept by all that is added
to the tree that holds. -/
theorem isSubset_partial_order (hd : d.Distinct) (hl : l.Distinct) :
    (d.isSubset l = true ↔ Within d l) ∧
      d.isSubset d = true ∧
      (∀ m : Json, d.isSubset l = true → l.isSubset m = true → d.isSubset m = true) ∧
      (d.isSubset l = true ∧ l.isSubset d = true ↔ Reordered d l) ∧
      ∀ m : Json, d.isSubset l = true → Additions l m → d.isSubset m = true := by
  refine ⟨⟨within_of_isSubset, isSubset_of_within hd⟩, isSubset_refl hd, fun m => isSubset_trans hd, ?_,
    fun m h hadditions => isSubset_of_additions hadditions h⟩
  exact ⟨fun ⟨h, h'⟩ => reordered_of_isSubset hd hl h h',
    fun h => ⟨h.isSubset hd, h.symm.isSubset hl⟩⟩

def desiredPorts : Json :=
  .obj [("ports", .arr [.obj [("port", .int 80)], .null]), ("weight", .float ⟨false, 10, -1⟩)]

def livePorts : Json :=
  .obj [("weight", .float ⟨false, 100, -2⟩), ("status", .obj []),
    ("ports", .arr [.obj [("protocol", .str "TCP"), ("port", .int 80)], .null])]

theorem isSubset_partial_order_ports : desiredPorts.Distinct ∧ livePorts.Distinct ∧
    Within desiredPorts livePorts ∧ ¬ Within livePorts desiredPorts ∧ ¬ Reordered desiredPorts livePorts := by
  have hd : desiredPorts.Distinct := by
    refine .obj (by decide) ?_
    simp only [List.forall_mem_cons, List.not_mem_nil, false_implies, implies_true, and_true]
    refine ⟨.arr ?_, .float _⟩
    simp only [List.forall_mem_cons, List.not_mem_nil, false_implies, implies_true, and_true]
    exact ⟨.obj (by decide) (by simp [Distinct.int]), .null⟩
  have hl : livePorts.Distinct := by
    refine .obj (by decide) ?_
    simp only [List.forall_mem_cons, List.not_mem_nil, false_implies, implies_true, and_true]
    refine ⟨.float _, .obj (by decide) (by simp), .arr ?_⟩
    simp only [List.forall_mem_cons, List.not_mem_nil, false_implies, implies_true, and_true]
    exact ⟨.obj (by decide) (by simp [Distinct.int, Distinct.str]), .null⟩
  have hheld : desiredPorts.isSubset livePorts = true := by decide +kernel
  have hmore : livePorts.isSubset desiredPorts = false := by decide +kernel
  refine ⟨hd, hl, (isSubset_partial_order hd hl).1.1 hheld, fun h => ?_, fun h => ?_⟩
  · rw [← (isSubset_partial_order hl hd).1, hmore] at h
    cases h
  · rw [← (isSubset_partial_order hd hl).2.2.2.1, hmore] at h
    cases h.2

end Json
end McpOperator
