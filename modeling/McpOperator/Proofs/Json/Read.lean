import McpOperator.Json.Read
import McpOperator.Proofs.Json.Members
import McpOperator.Proofs.Json.Token

namespace McpOperator

theorem Members.assign_of_nodup {key : String} {value : Json} {members rest : Members}
    (h : ((members ++ (key, value) :: rest).map Prod.fst).Nodup) :
    members.assign key value = members ++ [(key, value)] := by
  induction members with
  | nil => rfl
  | cons e members ih =>
      rw [List.cons_append, List.map_cons, List.nodup_cons] at h
      obtain ⟨hnew, hrest⟩ := h
      have hne : key ≠ e.1 := by
        rintro heq
        rw [List.map_append, ← heq] at hnew
        exact hnew (List.mem_append_right _ List.mem_cons_self)
      rw [Members.assign, if_neg hne, ih hrest, List.cons_append]

namespace Json

open Reading

section

variable {frames : List Frame} {e : Expecting} (he : e = .value ∨ e = .itemOrClose)

include he

theorem foldlM_atom (json : Json) :
    [Token.atom json].foldlM take ⟨frames, e⟩ = some ⟨frames, .afterValue json⟩ := by
  rcases he with rfl | rfl <;> rfl

theorem take_openBracket (hdepth : frames.length < depthLimit) :
    take ⟨frames, e⟩ .openBracket = some ⟨.items [] :: frames, .itemOrClose⟩ := by
  rcases he with rfl | rfl <;> exact if_pos hdepth

theorem take_openBrace (hdepth : frames.length < depthLimit) :
    take ⟨frames, e⟩ .openBrace = some ⟨.members [] "" :: frames, .keyOrClose⟩ := by
  rcases he with rfl | rfl <;> exact if_pos hdepth

end

theorem depth_cons {frames : List Frame} {depth : Nat} (frame : Frame)
    (h : frames.length + (depth + 1) ≤ depthLimit) : (frame :: frames).length + depth ≤ depthLimit := by
  rw [List.length_cons]
  omega

theorem foldlM_key {frames : List Frame} {e : Expecting} (he : e = .key ∨ e = .keyOrClose) (before : Members)
    (old key : String) (ts : List Token) :
    (.atom (.str key) :: .colon :: ts).foldlM take ⟨.members before old :: frames, e⟩ =
      ts.foldlM take ⟨.members before key :: frames, .value⟩ := by
  rcases he with rfl | rfl <;> rfl

mutual

theorem foldlM_words : (json : Json) → {depth : Nat} → json.Portable depth → json.Distinct →
    {frames : List Frame} → {e : Expecting} → e = .value ∨ e = .itemOrClose →
    frames.length + depth ≤ depthLimit →
    json.words.foldlM take ⟨frames, e⟩ = some ⟨frames, .afterValue json⟩
  | .null, _, _, _, _, _, he, _ => foldlM_atom he _
  | .bool _, _, _, _, _, _, he, _ => foldlM_atom he _
  | .int _, _, _, _, _, _, he, _ => foldlM_atom he _
  | .float _, _, _, _, _, _, he, _ => foldlM_atom he _
  | .str _, _, _, _, _, _, he, _ => foldlM_atom he _
  | .arr items, _, .arr hitems, .arr hkeys, frames, e, he, hdepth => by
      rw [words, List.cons_append, List.foldlM_cons, take_openBracket he (by omega),
        Option.bind_eq_bind, Option.bind_some]
      exact foldlM_itemWords items [] hitems hkeys (.inr rfl) (fun _ => rfl) (by omega)
  | .obj members, _, .obj hmembers, .obj hnodup hkeys, frames, e, he, hdepth => by
      rw [words, List.cons_append, List.foldlM_cons, take_openBrace he (by omega),
        Option.bind_eq_bind, Option.bind_some]
      exact foldlM_memberWords members [] hmembers hkeys hnodup "" (.inr rfl) (fun _ => rfl) (by omega)

theorem foldlM_itemWords : (items before : List Json) → {depth : Nat} →
    (∀ item ∈ items, item.Portable depth) → (∀ item ∈ items, item.Distinct) →
    {frames : List Frame} → {e : Expecting} → e = .value ∨ e = .itemOrClose →
    (items = [] → e = .itemOrClose) → frames.length + (depth + 1) ≤ depthLimit →
    (itemWords items ++ [Token.closeBracket]).foldlM take ⟨.items before :: frames, e⟩ =
      some ⟨frames, .afterValue (.arr (before.reverse ++ items))⟩
  | [], before, _, _, _, frames, e, _, he, _ => by
      obtain rfl := he rfl
      rw [List.append_nil]
      rfl
  | [item], before, depth, hitems, hkeys, frames, e, he, _, hdepth => by
      rw [itemWords, List.foldlM_append, foldlM_words item (hitems item List.mem_cons_self)
        (hkeys item List.mem_cons_self) he (depth_cons _ hdepth), ← List.reverse_cons]
      rfl
  | item :: next :: rest, before, depth, hitems, hkeys, frames, e, he, _, hdepth => by
      rw [List.forall_mem_cons] at hitems hkeys
      have hrest := foldlM_itemWords (next :: rest) (item :: before) hitems.2 hkeys.2
        (.inl rfl) nofun hdepth
      rw [List.reverse_cons, List.append_assoc, List.singleton_append] at hrest
      rw [itemWords, List.append_assoc, List.foldlM_append, foldlM_words item hitems.1 hkeys.1 he
        (depth_cons _ hdepth), ← hrest]
      · rfl
      · nofun

theorem foldlM_memberWords : (members before : Members) → {depth : Nat} →
    (∀ m ∈ members, m.2.Portable depth) → (∀ m ∈ members, m.2.Distinct) →
    ((before ++ members).map Prod.fst).Nodup → (old : String) → {frames : List Frame} →
    {e : Expecting} → e = .key ∨ e = .keyOrClose → (members = [] → e = .keyOrClose) →
    frames.length + (depth + 1) ≤ depthLimit →
    (memberWords members ++ [Token.closeBrace]).foldlM take ⟨.members before old :: frames, e⟩ =
      some ⟨frames, .afterValue (.obj (before ++ members))⟩
  | [], before, _, _, _, _, old, frames, e, _, he, _ => by
      obtain rfl := he rfl
      rw [List.append_nil]
      rfl
  | [(key, value)], before, depth, hmembers, hkeys, hnodup, old, frames, e, he, _, hdepth => by
      rw [memberWords, List.cons_append, List.cons_append, foldlM_key he, List.foldlM_append,
        foldlM_words value (hmembers _ List.mem_cons_self) (hkeys _ List.mem_cons_self) (.inl rfl)
          (depth_cons _ hdepth),
        ← Members.assign_of_nodup hnodup]
      rfl
  | (key, value) :: next :: rest, before, depth, hmembers, hkeys, hnodup, old, frames, e, he, _, hdepth => by
      rw [List.forall_mem_cons] at hmembers hkeys
      have hassign := Members.assign_of_nodup hnodup
      rw [List.append_cons] at hnodup
      have hrest := foldlM_memberWords (next :: rest) (before ++ [(key, value)]) hmembers.2 hkeys.2 hnodup ""
        (.inl rfl) nofun hdepth
      rw [← List.append_cons] at hrest
      rw [memberWords, List.append_assoc, List.cons_append, List.cons_append, foldlM_key he,
        List.foldlM_append, foldlM_words value hmembers.1 hkeys.1 (.inl rfl) (depth_cons _ hdepth), ← hrest,
        ← hassign]
      · rfl
      · nofun

end

/-- The compact text of a tree is read as that tree. -/
theorem ofText?_compact {json : Json} {depth : Nat} (h : json.Portable depth) (hkeys : json.Distinct)
    (hdepth : depth ≤ depthLimit) : ofText? json.compact = some json := by
  have hread := foldlM_words json h hkeys (.inl rfl) (show [].length + depth ≤ depthLimit by simpa using hdepth)
  rw [ofText?, ofText?_words h, Option.bind_eq_bind, Option.bind_some]
  change (json.words.foldlM take ⟨[], .value⟩).bind result? = some json
  rw [hread, Option.bind_some]
  rfl

end Json
end McpOperator
