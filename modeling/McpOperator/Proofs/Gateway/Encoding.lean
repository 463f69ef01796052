import McpOperator.Gateway.Config
import McpOperator.Proofs.Yaml.Word
import McpOperator.Proofs.Json.Members

namespace McpOperator

/-- A written form that tells all of a value, with numbers that read back from their digits. -/
class Faithful {α : Type} (encode : α → Json) : Prop where
  exact (a : α) : (encode a).Exact
  injective : Function.Injective encode

attribute [simp] Faithful.exact

def Json.ExactMember (o : Option Json) : Prop := ∀ json ∈ o, json.Exact

theorem Members.present_inj {fields others : List (String × Option Json)}
    (hkeys : fields.map Prod.fst = others.map Prod.fst) (hnodup : (fields.map Prod.fst).Nodup)
    (h : present fields = present others) : fields = others := by
  induction fields generalizing others with
  | nil => exact (List.map_eq_nil_iff.1 hkeys.symm).symm
  | cons f fields ih =>
      cases others with
      | nil => cases hkeys
      | cons g others =>
          obtain ⟨key, o⟩ := f
          obtain ⟨key', p⟩ := g
          obtain ⟨rfl, hothers⟩ := List.cons.inj hkeys
          obtain ⟨hnew, hdistinct⟩ := List.nodup_cons.1 hnodup
          have habsent : ∀ json, (key, json) ∉ present fields := fun json hmem =>
            hnew ((keys_present fields).subset (List.mem_map_of_mem hmem))
          have habsent' : ∀ json, (key, json) ∉ present others := fun json hmem =>
            hnew (hothers ▸ (keys_present others).subset (List.mem_map_of_mem hmem))
          cases o with
          | none =>
              cases p with
              | none => rw [ih hothers hdistinct h]
              | some json' => exact absurd (h ▸ List.mem_cons_self) (habsent json')
          | some json =>
              cases p with
              | none => exact absurd (h ▸ List.mem_cons_self) (habsent' json)
              | some json' =>
                  obtain ⟨hjson, hrest⟩ := List.cons.inj h
                  rw [ih hothers hdistinct hrest, (Prod.mk.inj hjson).2]

namespace Faithful

variable {α : Type} {encode : α → Json}

theorem encode_inj [Faithful encode] {a b : α} : encode a = encode b ↔ a = b :=
  injective.eq_iff

@[simp] theorem map_inj [Faithful encode] {o p : Option α} : o.map encode = p.map encode ↔ o = p :=
  (Option.map_injective injective).eq_iff

@[simp] theorem exactMember_some [Faithful encode] (a : α) : Json.ExactMember (some (encode a)) := by
  rintro _ ⟨⟩
  exact exact a

@[simp] theorem exactMember_map [Faithful encode] (o : Option α) :
    Json.ExactMember (o.map encode) := by
  cases o with
  | none => exact fun _ h => nomatch h
  | some a => exact exactMember_some a

instance : Faithful Json.str := ⟨.str, fun _ _ h => Json.str.inj h⟩

instance : Faithful Json.ofUInt16 where
  exact n := .int (by omega) (by have := n.toNat_lt; omega)
  injective _ _ h := UInt16.toNat_inj.1 (Int.ofNat.inj (Json.int.inj h))

instance [Faithful encode] : Faithful (Json.ofList encode) where
  exact as := by
    refine .arr fun json hjson => ?_
    obtain ⟨a, -, rfl⟩ := List.mem_map.1 hjson
    exact exact a
  injective _ _ h := List.map_injective_iff.2 injective (Json.arr.inj h)

instance : Faithful Json.ofStringMap where
  exact m := by
    refine .obj fun e he => ?_
    obtain ⟨f, -, rfl⟩ := List.mem_map.1 he
    exact .str f.2
  injective := by
    rintro ⟨es, hes⟩ ⟨fs, hfs⟩ h
    have hinj : Function.Injective fun e : String × String => (e.1, Json.str e.2) :=
      fun ⟨_, _⟩ ⟨_, _⟩ h => by simpa using h
    obtain rfl : es = fs := List.map_injective_iff.2 hinj (Json.obj.inj h)
    rfl

instance : Faithful Json.strings := inferInstanceAs (Faithful (Json.ofList .str))

theorem of_record {members : α → List (String × Option Json)}
    (hnames : ∀ a b, (members a).map Prod.fst = (members b).map Prod.fst)
    (hnodup : ∀ a, ((members a).map Prod.fst).Nodup)
    (hexact : ∀ a, ∀ m ∈ members a, Json.ExactMember m.2) (hinj : Function.Injective members) :
    Faithful fun a => Json.record (members a) where
  exact a := .obj fun _ hm => hexact a _ (Members.mem_present.1 hm) _ rfl
  injective a b h := hinj (Members.present_inj (hnames a b) (hnodup a) (Json.obj.inj h))

theorem of_object {members : α → Members} (hexact : ∀ a, ∀ m ∈ members a, m.2.Exact)
    (hinj : Function.Injective members) : Faithful fun a => Json.obj (members a) where
  exact a := .obj (hexact a)
  injective _ _ h := hinj (Json.obj.inj h)

end Faithful

namespace Gateway

open Faithful

theorem unless_empty {α β : Type} {f : α → β} {p : α → Bool} (hf : Function.Injective f)
    (h : ∀ a b, p a = true → p b = true → a = b) {a b : α}
    (heq : (if p a then none else some (f a)) = if p b then none else some (f b)) :
    a = b := by
  split at heq <;> split at heq
  · exact h a b ‹_› ‹_›
  · cases heq
  · cases heq
  · exact hf (Option.some.inj heq)

theorem exactMember_unless {α : Type} {encode : α → Json} [Faithful encode] (isEmpty : Bool) (a : α) :
    Json.ExactMember (if isEmpty then none else some (encode a)) := by
  split
  · exact fun _ h => nomatch h
  · exact exactMember_some a

@[simp] theorem nonemptyStrings_inj {as bs : List String} :
    nonemptyStrings as = nonemptyStrings bs ↔ as = bs :=
  ⟨unless_empty injective fun _ _ ha hb =>
    (List.isEmpty_iff.1 ha).trans (List.isEmpty_iff.1 hb).symm, congrArg nonemptyStrings⟩

@[simp] theorem exactMember_nonemptyStrings (as : List String) :
    Json.ExactMember (nonemptyStrings as) := exactMember_unless as.isEmpty as

@[simp] theorem nonemptyMap_inj {m n : StringMap} : nonemptyMap m = nonemptyMap n ↔ m = n := by
  refine ⟨unless_empty injective fun a b ha hb => ?_, congrArg nonemptyMap⟩
  obtain ⟨as, has⟩ := a
  obtain ⟨bs, hbs⟩ := b
  obtain rfl : as = bs := (List.isEmpty_iff.1 ha).trans (List.isEmpty_iff.1 hb).symm
  rfl

@[simp] theorem exactMember_nonemptyMap (m : StringMap) : Json.ExactMember (nonemptyMap m) :=
  exactMember_unless m.isEmpty m

instance : Faithful PathMatch.encode :=
  of_record (fun _ _ => rfl) (by simp) (by simp) fun ⟨_, _⟩ ⟨_, _⟩ h => by simpa using h

instance : Faithful RouteMatch.encode :=
  of_object (by simp) fun ⟨_⟩ ⟨_⟩ h => by simpa [encode_inj] using h

instance : Faithful StdioTarget.encode :=
  of_record (fun _ _ => rfl) (by simp) (by simp) fun ⟨_, _, _⟩ ⟨_, _, _⟩ h => by simpa using h

instance : Faithful SseTarget.encode :=
  of_object (by simp) fun ⟨_, _, _⟩ ⟨_, _, _⟩ h => by simpa [encode_inj] using h

theorem TargetSpec.member_injective : Function.Injective TargetSpec.member := by
  rintro (t | t) (u | u) h
  · exact congrArg stdio (encode_inj.1 (show t.encode = u.encode from (Prod.mk.inj h).2))
  · simp [member] at h
  · simp [member] at h
  · exact congrArg sse (encode_inj.1 (show t.encode = u.encode from (Prod.mk.inj h).2))

theorem TargetSpec.exact_member (t : TargetSpec) : t.member.2.Exact := by
  cases t with
  | stdio t => exact (show t.encode.Exact from exact t)
  | sse t => exact (show t.encode.Exact from exact t)

instance : Faithful Target.encode :=
  of_object (by simp [TargetSpec.exact_member]) fun ⟨_, _⟩ ⟨_, _⟩ h => by
    simpa [TargetSpec.member_injective.eq_iff] using h

instance : Faithful McpBackend.encode :=
  of_object (by simp) fun ⟨_⟩ ⟨_⟩ h => by simpa [encode_inj] using h

instance : Faithful Backend.encode := by
  refine of_object (fun b => ?_) fun ⟨_, _⟩ ⟨_, _⟩ h => ?_
  · have hweight : (Json.int b.weight.toNat).Exact :=
      .int (by omega) (by have := b.weight.toNat_lt; omega)
    simp [hweight]
  · simpa [encode_inj, Int.ofNat_inj, UInt32.toNat_inj] using h

instance : Faithful Jwks.encode :=
  of_record (fun _ _ => rfl) (by simp) (by simp) fun ⟨_, _⟩ ⟨_, _⟩ h => by simpa using h

instance : Faithful JwtAuth.encode :=
  of_object (by simp) fun ⟨_, _, _⟩ ⟨_, _, _⟩ h => by simpa [encode_inj] using h

instance : Faithful Authorization.encode :=
  of_object (by simp) fun ⟨_⟩ ⟨_⟩ h => by simpa [encode_inj] using h

instance : Faithful Keycloak.encode := of_object (by simp) fun _ _ _ => rfl

instance : Faithful Provider.encode :=
  of_record (fun _ _ => rfl) (by simp) (by simp) fun ⟨_⟩ ⟨_⟩ h => by simpa using h

theorem append_inj_of_all {α : Type} {p : α → Bool} {xs xs' ys ys' : List α}
    (hxs : ∀ x ∈ xs, p x = false) (hxs' : ∀ x ∈ xs', p x = false) (hys : ∀ y ∈ ys, p y = true)
    (hys' : ∀ y ∈ ys', p y = true) (h : xs ++ ys = xs' ++ ys') : xs = xs' ∧ ys = ys' := by
  have hfilter : ∀ {xs ys : List α}, (∀ x ∈ xs, p x = false) → (∀ y ∈ ys, p y = true) →
      (xs ++ ys).filter p = ys := by
    intro xs ys hxs hys
    rw [List.filter_append, List.filter_eq_nil_iff.2 (by simpa using hxs),
      List.filter_eq_self.2 hys, List.nil_append]
  obtain rfl : ys = ys' := by
    rw [← hfilter hxs hys, h, hfilter hxs' hys']
  exact ⟨List.append_cancel_right h, rfl⟩

namespace ResourceMetadata

variable (r : ResourceMetadata)

def lists : List (String × Option Json) := [
  ("scopesSupported", nonemptyStrings r.scopesSupported),
  ("bearerMethodsSupported", nonemptyStrings r.bearerMethodsSupported)]

def others : Members := r.additionalFields.entries.map fun e => (e.1, .str e.2)

def isText (m : String × Json) : Bool := m.2.asString?.isSome

theorem isText_of_mem_others : ∀ m ∈ others r, isText m = true := by
  intro m hm
  obtain ⟨e, -, rfl⟩ := List.mem_map.1 hm
  rfl

theorem strings_of_mem_lists {m : String × Json} (hm : m ∈ Members.present (lists r)) :
    ∃ texts, m.2 = .strings texts := by
  have hnonempty : ∀ {texts : List String} {json : Json}, nonemptyStrings texts = some json →
      json = .strings texts := by
    intro texts json h
    rw [nonemptyStrings] at h
    split at h
    · cases h
    · exact (Option.some.inj h).symm
  rcases List.mem_cons.1 (Members.mem_present.1 hm) with h | h
  · exact ⟨_, hnonempty (Prod.mk.inj h).2.symm⟩
  · exact ⟨_, hnonempty (Prod.mk.inj (List.mem_singleton.1 h)).2.symm⟩

/-- A list that has the name of another field is told from it by being a list. -/
instance : Faithful encode := by
  refine of_object (fun r m hm => ?_) (?_ : Function.Injective fun r : ResourceMetadata =>
    ("resource", .str r.resource) :: (Members.present (lists r) ++ others r))
  · rcases List.mem_cons.1 hm with rfl | hm
    · exact .str r.resource
    · rcases List.mem_append.1 hm with hm | hm
      · obtain ⟨texts, htexts⟩ := strings_of_mem_lists r hm
        rw [htexts]
        exact exact texts
      · obtain ⟨e, -, rfl⟩ := List.mem_map.1 hm
        exact .str e.2
  · intro r r' h
    obtain ⟨hresource, hrest⟩ := List.cons.inj h
    have hlists : ∀ r, ∀ m ∈ Members.present (lists r), isText m = false := by
      intro r m hm
      obtain ⟨texts, htexts⟩ := strings_of_mem_lists r hm
      rw [isText, htexts]
      rfl
    obtain ⟨hpresent, hothers⟩ := append_inj_of_all (hlists r) (hlists r') (isText_of_mem_others r)
      (isText_of_mem_others r') hrest
    have hfields : r.additionalFields = r'.additionalFields :=
      encode_inj.1 (show Json.ofStringMap _ = Json.ofStringMap _ from congrArg Json.obj hothers)
    have heq : lists r = lists r' := Members.present_inj rfl (by simp [lists]) hpresent
    cases r
    cases r'
    simp_all [lists]

end ResourceMetadata

instance : Faithful Authentication.encode :=
  of_record (fun _ _ => rfl) (by simp) (by simp) fun ⟨_, _, _, _, _⟩ ⟨_, _, _, _, _⟩ h => by
    simpa using h

instance : Faithful Cors.encode :=
  of_record (fun _ _ => rfl) (by simp) (by simp) fun ⟨_, _⟩ ⟨_, _⟩ h => by simpa using h

instance : Faithful Policies.encode :=
  of_record (fun _ _ => rfl) (by simp) (by simp) fun ⟨_, _, _, _⟩ ⟨_, _, _, _⟩ h => by simpa using h

instance : Faithful Route.encode :=
  of_record (fun _ _ => rfl) (by simp) (by simp) fun ⟨_, _, _, _⟩ ⟨_, _, _, _⟩ h => by
    simpa [encode_inj] using h

instance : Faithful Protocol.encode where
  exact p := by
    cases p
    exact .str "HTTP"
  injective p q _ := by
    cases p
    cases q
    rfl

instance : Faithful Listener.encode :=
  of_object (by simp) fun ⟨_, _, _⟩ ⟨_, _, _⟩ h => by simpa [encode_inj] using h

instance : Faithful Bind.encode :=
  of_object (by simp) fun ⟨_, _⟩ ⟨_, _⟩ h => by simpa [encode_inj] using h

instance : Faithful Settings.encode := of_object (by simp) fun _ _ _ => rfl

instance : Faithful Config.encode :=
  of_object (by simp) fun ⟨_, _⟩ ⟨_, _⟩ h => by simpa [encode_inj] using h

end Gateway
end McpOperator
