import McpOperator.Proofs.Yaml.Word

namespace McpOperator.Yaml

theorem valueChars_leaf {json : Json} {style : Style} {cs : List Char} (indent : Nat)
    (h : leaf json = some (style, cs)) :
    valueChars indent json = ' ' :: (styled style (indent + 2) cs ++ ending style cs) := by
  unfold leaf at h
  split at h <;> cases h <;> rw [valueChars.eq_def]
  case h_5 s => exact endLine_styled _ (fits_style false _) [' ']
  all_goals rfl

theorem valueChars_arr (indent : Nat) (item : Json) (items : List Json) :
    valueChars indent (.arr (item :: items)) = '\n' :: itemChars indent (item :: items) := by
  rw [valueChars.eq_def]

theorem valueChars_obj (indent : Nat) (m : String × Json) (ms : Members) :
    valueChars indent (.obj (m :: ms)) = '\n' :: memberChars (indent + 2) (m :: ms) := by
  rw [valueChars.eq_def]

theorem itemChars_nil (indent : Nat) : itemChars indent [] = [] := by
  rw [itemChars.eq_def]

theorem itemChars_cons (indent : Nat) (item : Json) (items : List Json) :
    itemChars indent (item :: items) =
      spaces indent ++ '-' :: (dashed indent item ++ itemChars indent items) := by
  rw [itemChars.eq_def]
  simp

theorem memberChars_nil (indent : Nat) : memberChars indent [] = [] := by
  rw [memberChars.eq_def]

theorem memberChars_cons (indent : Nat) (key : String) (value : Json) (ms : Members) :
    memberChars indent ((key, value) :: ms) =
      spaces indent ++ (keyChars indent key ++ (valueChars indent value ++ memberChars indent ms)) := by
  rw [memberChars.eq_def]
  simp

theorem dashed_leaf {json : Json} {style : Style} {cs : List Char} (indent : Nat)
    (h : leaf json = some (style, cs)) : dashed indent json = valueChars indent json := by
  unfold leaf at h
  split at h <;> cases h <;> rw [dashed.eq_def]

theorem drop_spaces (indent : Nat) (cs : List Char) : (spaces indent ++ cs).drop indent = cs :=
  List.drop_left' List.length_replicate

theorem dashed_arr (indent : Nat) (item : Json) (items : List Json) :
    dashed indent (.arr (item :: items)) =
      ' ' :: '-' :: (dashed (indent + 2) item ++ itemChars (indent + 2) items) := by
  rw [dashed.eq_def]
  simp only [itemChars_cons, drop_spaces]

theorem dashed_obj (indent : Nat) (key : String) (value : Json) (ms : Members) :
    dashed indent (.obj ((key, value) :: ms)) = ' ' :: (keyChars (indent + 2) key ++
      (valueChars (indent + 2) value ++ memberChars (indent + 2) ms)) := by
  rw [dashed.eq_def]
  simp only [memberChars_cons, drop_spaces]

def LineStart (t : List Char) : Prop :=
  ∃ c rest, t = c :: rest ∧ c ≠ ' ' ∧ isBreak c = false ∧ (c = '-' → rest.head? ≠ some ' ')

theorem styled_begins {style : Style} (indent : Nat) {cs r : List Char} (h : Fits style cs)
    (hr : style = .plain → r.head? ≠ some ' ') : ∃ c rest, styled style indent cs ++ r = c :: rest ∧
      c ≠ ' ' ∧ isBreak c = false ∧ (c ∈ ['?', ':', '-'] → rest.head? ≠ some ' ') := by
  cases style with
  | plain =>
      obtain ⟨c, rest, rfl, hc, hsign⟩ := h.begins
      refine ⟨c, rest ++ r, rfl, by rintro rfl; simp at hc, h.unbroken c List.mem_cons_self, ?_⟩
      intro hmem
      cases rest with
      | nil => exact hr rfl
      | cons d rest => exact hsign hmem
  | singleQuoted | doubleQuoted | literal =>
      exact ⟨_, _, rfl, by decide, by decide, fun hmem => absurd hmem (by decide)⟩

/-- A key stands in front of its colon, or on a line of its own behind a question mark. -/
theorem keyChars_cases (key : String) :
    (∃ style, style ≠ .literal ∧ Fits style key.toList ∧ (∀ c ∈ key.toList, isBreak c = false) ∧
      ∀ indent, keyChars indent key = styled style (indent + 2) key.toList ++ [':']) ∨
    ∃ style, Fits style key.toList ∧ ∀ indent, keyChars indent key =
      '?' :: ' ' :: (styled style (indent + 2) key.toList ++ (ending style key.toList ++
        (spaces indent ++ [':']))) := by
  by_cases h : needsOwnLine key = true
  · refine .inr ⟨_, fits_style false key.toList, fun indent => ?_⟩
    have hline := endLine_styled (indent + 2) (fits_style false key.toList) ['?', ' ']
    rw [keyChars, if_pos h]
    change endLine (['?', ' '] ++ styled _ _ _) ++ _ ++ _ = _
    rw [hline]
    simp
  · refine .inl ⟨style true key.toList, ?_, fits_style true key.toList, ?_, fun indent => ?_⟩
    · rw [style]
      simp only [Bool.not_true, Bool.and_false]
      repeat' split
      all_goals simp_all
    · simp only [needsOwnLine, Bool.or_eq_true, not_or, List.any_eq_true] at h
      exact fun c hc => by simpa using fun hbreak => h.1 ⟨c, hc, hbreak⟩
    · rw [keyChars, if_neg h]
      rfl

theorem keyChars_lineStart (indent : Nat) (key : String) (r : List Char) :
    LineStart (keyChars indent key ++ r) := by
  rcases keyChars_cases key with ⟨style, -, hfits, -, hkey⟩ | ⟨style, -, hkey⟩
  · obtain ⟨c, rest, heq, hspace, hbreak, hdash⟩ :=
      styled_begins (indent + 2) (r := ':' :: r) hfits (fun _ => by simp)
    refine ⟨c, rest, ?_, hspace, hbreak, fun hc => hdash (by simp [hc])⟩
    rw [hkey, List.append_assoc]
    exact heq
  · rw [hkey]
    exact ⟨_, _, rfl, by decide, by decide, fun h => absurd h (by decide)⟩

theorem behind_colon {style : Style} {indent : Nat} {r : List Char} (cs : List Char)
    (hstyle : style ≠ .literal) (hr : startsBlank r = true) : Behind indent style cs (':' :: r) := by
  cases style with
  | literal => exact absurd rfl hstyle
  | plain | singleQuoted | doubleQuoted => exact ⟨r, .inr ⟨rfl, hr⟩⟩

theorem styled_ne_question {style : Style} {indent : Nat} {cs r s : List Char} (h : Fits style cs)
    (hr : style = .plain → r.head? ≠ some ' ') : styled style indent cs ++ r ≠ '?' :: ' ' :: s := by
  intro heq
  obtain ⟨c, rest, hbegins, -, -, hsign⟩ := styled_begins indent h hr
  rw [hbegins] at heq
  obtain ⟨rfl, rfl⟩ := List.cons.inj heq
  exact hsign (by decide) rfl

theorem below_spaces {m n : Nat} (h : m < n) {c : Char} {t : List Char} (hspace : c ≠ ' ')
    (hbreak : isBreak c = false) : Below n (spaces m ++ c :: t) :=
  .inr ⟨m, h, c, t, rfl, hspace, hbreak⟩

theorem keyChars_append_inj {indent : Nat} {key key' : String} {r s : List Char}
    (hr : startsBlank r = true) (hs : startsBlank s = true)
    (h : keyChars indent key ++ r = keyChars indent key' ++ s) : key = key' ∧ r = s := by
  have hcolon : ∀ t : List Char, (':' :: t).head? ≠ some ' ' := fun t => by simp
  rcases keyChars_cases key with ⟨style, hstyle, hfits, -, hkey⟩ | ⟨style, hfits, hkey⟩ <;>
    rcases keyChars_cases key' with ⟨style', hstyle', hfits', -, hkey'⟩ | ⟨style', hfits', hkey'⟩ <;>
    rw [hkey, hkey'] at h
  · rw [List.append_assoc, List.append_assoc] at h
    obtain ⟨-, hlist, hrest⟩ := styled_append_inj hfits hfits' (behind_colon _ hstyle hr)
      (behind_colon _ hstyle' hs) h
    exact ⟨String.toList_inj.1 hlist, (List.cons.inj hrest).2⟩
  · rw [List.append_assoc] at h
    exact absurd h (styled_ne_question hfits fun _ => hcolon r)
  · rw [List.append_assoc (styled _ _ _)] at h
    exact absurd h.symm (styled_ne_question hfits' fun _ => hcolon s)
  · have hbehind : ∀ (style : Style) (cs r : List Char), Behind (indent + 2) style cs
        (ending style cs ++ (spaces indent ++ ':' :: r)) := fun style cs r =>
      behind_ending cs (below_spaces (by omega) (by decide) (by decide))
    simp only [List.cons_append, List.append_assoc, List.nil_append] at h
    obtain ⟨rfl, hlist, hrest⟩ := styled_append_inj hfits hfits' (hbehind style _ r)
      (hbehind style' _ s) (List.cons.inj (List.cons.inj h).2).2
    rw [hlist] at hrest
    exact ⟨String.toList_inj.1 hlist,
      (List.cons.inj (List.append_cancel_left (List.append_cancel_left hrest))).2⟩

theorem styled_ne_keyChars {style : Style} {m n : Nat} {cs r s : List Char} {key : String}
    (h : Fits style cs) (hr : Below m r) (hs : startsBlank s = true) :
    styled style m cs ++ (ending style cs ++ r) ≠ keyChars n key ++ s := by
  intro heq
  rcases keyChars_cases key with ⟨style', hstyle, hfits, hbreak, hkey⟩ | ⟨style', hfits, hkey⟩ <;>
    rw [hkey] at heq
  · -- The texts are alike up to where the leaf has a break and the key its colon.
    rw [List.append_assoc, styled_eq (n + 2) m hstyle hbreak] at heq
    obtain ⟨rfl, -, hrest⟩ := styled_append_inj h hfits (behind_ending cs hr)
      (behind_colon _ hstyle hs) heq
    cases style with
    | literal => exact hstyle rfl
    | plain | singleQuoted | doubleQuoted => cases hrest
  · refine styled_ne_question h (fun hstyle => ?_) heq
    subst hstyle
    simp [ending]

/-- What may follow a value behind a key at `indent`: nothing, or a line that is indented no more and
begins no item there. -/
def Follows (indent : Nat) (r : List Char) : Prop :=
  Below (indent + 1) r ∧ ∀ t, r ≠ spaces indent ++ '-' :: ' ' :: t

theorem Below.follows {indent : Nat} {r : List Char} (h : Below indent r) : Follows indent r :=
  ⟨h.mono (by omega), fun _ => h.ne_spaces⟩

theorem shape_cases {json : Json} (h : json.Exact) :
    (∃ style cs, leaf json = some (style, cs)) ∨ (∃ item items, json = .arr (item :: items)) ∨
      ∃ key value ms, json = .obj ((key, value) :: ms) := by
  cases h with
  | null => exact .inl ⟨_, _, rfl⟩
  | bool b => cases b <;> exact .inl ⟨_, _, rfl⟩
  | int => exact .inl ⟨_, _, rfl⟩
  | str => exact .inl ⟨_, _, rfl⟩
  | @arr items =>
      cases items with
      | nil => exact .inl ⟨_, _, rfl⟩
      | cons item items => exact .inr (.inl ⟨item, items, rfl⟩)
  | @obj ms =>
      cases ms with
      | nil => exact .inl ⟨_, _, rfl⟩
      | cons m ms => exact .inr (.inr ⟨m.1, m.2, ms, rfl⟩)

theorem leaf_inj {json json' : Json} {style : Style} {cs : List Char} (h : json.Exact)
    (h' : json'.Exact) (hleaf : leaf json = some (style, cs)) (hleaf' : leaf json' = some (style, cs)) :
    json = json' :=
  (ofLeaf_leaf h hleaf).symm.trans (ofLeaf_leaf h' hleaf')

/-- A tree whose first line begins where it stands, without blanks in front; its other lines begin at
`indent`, and those of a scalar at `inner`. -/
def body (indent inner : Nat) : Json → List Char
  | .arr (item :: items) => '-' :: (dashed indent item ++ itemChars indent items)
  | .obj ((key, value) :: ms) =>
      keyChars indent key ++ (valueChars indent value ++ memberChars indent ms)
  | json => match leaf json with
      | some (style, cs) => styled style inner cs ++ ending style cs
      | none => []

section Body

variable (indent inner : Nat)

theorem body_leaf {json : Json} {style : Style} {cs : List Char} (h : leaf json = some (style, cs)) :
    body indent inner json = styled style inner cs ++ ending style cs := by
  unfold leaf at h
  split at h <;> cases h <;> rfl

theorem itemChars_eq (item : Json) (items : List Json) :
    itemChars indent (item :: items) = spaces indent ++ body indent inner (.arr (item :: items)) :=
  itemChars_cons ..

theorem memberChars_eq (m : String × Json) (ms : Members) :
    memberChars indent (m :: ms) = spaces indent ++ body indent inner (.obj (m :: ms)) :=
  memberChars_cons ..

theorem dashed_eq {json : Json} (h : json.Exact) :
    dashed indent json = ' ' :: body (indent + 2) (indent + 2) json := by
  rcases shape_cases h with ⟨style, cs, hleaf⟩ | ⟨item, items, rfl⟩ | ⟨key, value, ms, rfl⟩
  · rw [dashed_leaf indent hleaf, valueChars_leaf indent hleaf, body_leaf _ _ hleaf]
  · exact dashed_arr ..
  · exact dashed_obj ..

theorem render_eq {json : Json} (h : json.Exact) : render json = String.ofList (body 0 2 json) := by
  rcases shape_cases h with ⟨style, cs, hleaf⟩ | ⟨item, items, rfl⟩ | ⟨key, value, ms, rfl⟩
  · have hvalue : render json = String.ofList ((valueChars 0 json).drop 1) := by
      unfold leaf at hleaf
      split at hleaf <;> cases hleaf <;> rfl
    rw [hvalue, valueChars_leaf 0 hleaf, body_leaf _ _ hleaf]
    rfl
  · exact congrArg String.ofList (itemChars_eq 0 2 item items)
  · exact congrArg String.ofList (memberChars_eq 0 2 (key, value) ms)

end Body

theorem below_itemChars {indent : Nat} {r : List Char} (items : List Json)
    (h : Below (indent + 1) r) : Below (indent + 1) (itemChars indent items ++ r) := by
  cases items with
  | nil => rwa [itemChars_nil]
  | cons item items =>
      rw [itemChars_cons, List.append_assoc]
      exact below_spaces (by omega) (by decide) (by decide)

theorem follows_memberChars {indent : Nat} {r : List Char} (ms : Members) (h : Below indent r) :
    Follows indent (memberChars indent ms ++ r) := by
  cases ms with
  | nil =>
      rw [memberChars_nil]
      exact h.follows
  | cons m ms =>
      obtain ⟨c, rest, heq, hspace, hbreak, hdash⟩ := keyChars_lineStart indent m.1
        (valueChars indent m.2 ++ memberChars indent ms ++ r)
      have hline : memberChars indent (m :: ms) ++ r = spaces indent ++ c :: rest := by
        rw [memberChars_cons, ← heq]
        simp
      rw [hline]
      refine ⟨below_spaces (by omega) hspace hbreak, fun t hitem => ?_⟩
      obtain ⟨rfl, rfl⟩ := List.cons.inj (List.append_cancel_left hitem)
      exact hdash rfl rfl

theorem startsBlank_valueChars {json : Json} (h : json.Exact) (indent : Nat) (r : List Char) :
    startsBlank (valueChars indent json ++ r) = true := by
  rcases shape_cases h with ⟨style, cs, hleaf⟩ | ⟨item, items, rfl⟩ | ⟨key, value, ms, rfl⟩
  · rw [valueChars_leaf indent hleaf]
    rfl
  · rw [valueChars_arr]
    rfl
  · rw [valueChars_obj]
    rfl

/-- The tree and its end can be told from its text, on the line where it stands and behind a key. -/
structure Readable (json : Json) : Prop where
  inPlace : ∀ {indent inner : Nat} {json' : Json} {r s : List Char}, json'.Exact → indent ≤ inner →
    Below indent r → Below indent s → body indent inner json ++ r = body indent inner json' ++ s →
    json = json' ∧ r = s
  behindKey : ∀ {indent : Nat} {json' : Json} {r s : List Char}, json'.Exact → Follows indent r →
    Follows indent s → valueChars indent json ++ r = valueChars indent json' ++ s →
    json = json' ∧ r = s

theorem itemChars_append {item : Json} (h : item.Exact) (items : List Json) (indent : Nat)
    (r : List Char) : itemChars indent (item :: items) ++ r = spaces indent ++ '-' :: ' ' ::
      (body (indent + 2) (indent + 2) item ++ (itemChars indent items ++ r)) := by
  rw [itemChars_cons, dashed_eq indent h]
  simp

theorem itemChars_append_inj {items items' : List Json} (h : ∀ item ∈ items, item.Exact)
    (hread : ∀ item ∈ items, Readable item) (h' : ∀ item ∈ items', item.Exact) {indent : Nat}
    {r s : List Char} (hr : Follows indent r) (hs : Follows indent s)
    (heq : itemChars indent items ++ r = itemChars indent items' ++ s) : items = items' ∧ r = s := by
  induction items generalizing items' with
  | nil =>
      cases items' with
      | nil => exact ⟨rfl, List.append_cancel_left heq⟩
      | cons item' items' =>
          -- What follows the shorter list begins with no dash at its indentation.
          rw [itemChars_append (h' _ List.mem_cons_self), itemChars_nil] at heq
          exact absurd heq (hr.2 _)
  | cons item items ih =>
      cases items' with
      | nil =>
          rw [itemChars_append (h _ List.mem_cons_self), itemChars_nil] at heq
          exact absurd heq.symm (hs.2 _)
      | cons item' items' =>
          rw [itemChars_append (h _ List.mem_cons_self),
            itemChars_append (h' _ List.mem_cons_self)] at heq
          have hbody := (List.cons.inj (List.cons.inj (List.append_cancel_left heq)).2).2
          obtain ⟨rfl, hrest⟩ := (hread item List.mem_cons_self).inPlace (h' _ List.mem_cons_self)
            (Nat.le_refl _) ((below_itemChars items hr.1).mono (by omega))
            ((below_itemChars items' hs.1).mono (by omega)) hbody
          obtain ⟨rfl, rfl⟩ := ih (fun a ha => h a (List.mem_cons_of_mem _ ha))
            (fun a ha => hread a (List.mem_cons_of_mem _ ha))
            (fun a ha => h' a (List.mem_cons_of_mem _ ha)) hrest
          exact ⟨rfl, rfl⟩

theorem memberChars_append (key : String) (value : Json) (ms : Members) (indent : Nat)
    (r : List Char) : memberChars indent ((key, value) :: ms) ++ r =
      spaces indent ++ (keyChars indent key ++
        (valueChars indent value ++ (memberChars indent ms ++ r))) := by
  rw [memberChars_cons]
  simp

theorem Below.ne_memberChars {indent : Nat} {r s : List Char} {m : String × Json} {ms : Members}
    (h : Below indent r) : r ≠ memberChars indent (m :: ms) ++ s := by
  obtain ⟨c, rest, heq, -⟩ := keyChars_lineStart indent m.1
    (valueChars indent m.2 ++ (memberChars indent ms ++ s))
  rw [memberChars_append, heq]
  exact h.ne_spaces

theorem memberChars_append_inj {ms ms' : Members} (h : ∀ m ∈ ms, m.2.Exact)
    (hread : ∀ m ∈ ms, Readable m.2) (h' : ∀ m ∈ ms', m.2.Exact) {indent : Nat} {r s : List Char}
    (hr : Below indent r) (hs : Below indent s)
    (heq : memberChars indent ms ++ r = memberChars indent ms' ++ s) : ms = ms' ∧ r = s := by
  induction ms generalizing ms' with
  | nil =>
      cases ms' with
      | nil => exact ⟨rfl, List.append_cancel_left heq⟩
      | cons m' ms' =>
          rw [memberChars_nil] at heq
          exact absurd heq hr.ne_memberChars
  | cons m ms ih =>
      cases ms' with
      | nil =>
          rw [memberChars_nil] at heq
          exact absurd heq.symm hs.ne_memberChars
      | cons m' ms' =>
          obtain ⟨key, value⟩ := m
          obtain ⟨key', value'⟩ := m'
          have hvalue' : value'.Exact := h' _ List.mem_cons_self
          rw [memberChars_append, memberChars_append] at heq
          -- First the key is read, then its value, up to where the next key begins.
          obtain ⟨rfl, hrest⟩ := keyChars_append_inj
            (startsBlank_valueChars (h _ List.mem_cons_self) indent _)
            (startsBlank_valueChars hvalue' indent _) (List.append_cancel_left heq)
          obtain ⟨rfl, htail⟩ := (hread _ List.mem_cons_self).behindKey hvalue'
            (follows_memberChars ms hr) (follows_memberChars ms' hs) hrest
          obtain ⟨rfl, rfl⟩ := ih (fun a ha => h a (List.mem_cons_of_mem _ ha))
            (fun a ha => hread a (List.mem_cons_of_mem _ ha))
            (fun a ha => h' a (List.mem_cons_of_mem _ ha)) htail
          exact ⟨rfl, rfl⟩

section Begin

variable {indent inner : Nat} {r s : List Char}

theorem leaf_ne_arr {json item : Json} {style : Style} {cs : List Char} {items : List Json}
    (hleaf : leaf json = some (style, cs)) (hitem : item.Exact) :
    body indent inner json ++ r ≠ body indent inner (.arr (item :: items)) ++ s := by
  intro heq
  have hending : style = .plain → (ending style cs ++ r).head? ≠ some ' ' := by
    rintro rfl
    simp [ending]
  obtain ⟨c, rest, hbegins, -, -, hsign⟩ :=
    styled_begins inner (fits_leaf hleaf) hending
  rw [body_leaf _ _ hleaf, List.append_assoc, hbegins, body, dashed_eq indent hitem] at heq
  obtain ⟨rfl, rfl⟩ := List.cons.inj heq
  exact hsign (by decide) rfl

theorem leaf_ne_obj {json value : Json} {style : Style} {cs : List Char} {key : String} {ms : Members}
    (hleaf : leaf json = some (style, cs)) (hvalue : value.Exact) (hr : Below inner r) :
    body indent inner json ++ r ≠ body indent inner (.obj ((key, value) :: ms)) ++ s := by
  rw [body_leaf _ _ hleaf, body, List.append_assoc, List.append_assoc, List.append_assoc]
  exact styled_ne_keyChars (fits_leaf hleaf) hr (startsBlank_valueChars hvalue _ _)

theorem arr_ne_obj {item value : Json} {items : List Json} {key : String} {ms : Members}
    (hitem : item.Exact) : body indent inner (.arr (item :: items)) ++ r ≠
      body indent inner (.obj ((key, value) :: ms)) ++ s := by
  intro heq
  obtain ⟨c, rest, hline, -, -, hdash⟩ := keyChars_lineStart indent key
    (valueChars indent value ++ memberChars indent ms ++ s)
  rw [body, body, dashed_eq indent hitem, List.append_assoc (keyChars _ _), hline] at heq
  obtain ⟨rfl, rfl⟩ := List.cons.inj heq
  exact hdash rfl rfl

theorem valueChars_arr_ne_obj {item : Json} {items : List Json} {m : String × Json} {ms : Members} :
    valueChars indent (.arr (item :: items)) ++ r ≠ valueChars indent (.obj (m :: ms)) ++ s := by
  intro heq
  -- Items stand at the indentation of the key, members deeper.
  rw [valueChars_arr, valueChars_obj, itemChars_cons, memberChars_cons, spaces_add] at heq
  simp [spaces] at heq

end Begin

theorem leaf_append_inj {style style' : Style} {indent : Nat} {cs ds r s : List Char}
    (hcs : Fits style cs) (hds : Fits style' ds) (hr : Below indent r) (hs : Below indent s)
    (heq : styled style indent cs ++ (ending style cs ++ r) =
      styled style' indent ds ++ (ending style' ds ++ s)) : style = style' ∧ cs = ds ∧ r = s := by
  obtain ⟨rfl, rfl, hrest⟩ :=
    styled_append_inj hcs hds (behind_ending cs hr) (behind_ending ds hs) heq
  exact ⟨rfl, rfl, List.append_cancel_left hrest⟩

theorem readable_leaf {json : Json} {style : Style} {cs : List Char} (h : json.Exact)
    (hleaf : leaf json = some (style, cs)) : Readable json where
  inPlace := by
    intro indent inner json' r s h' hle hr hs heq
    rcases shape_cases h' with ⟨style', ds, hleaf'⟩ | ⟨item, items, rfl⟩ | ⟨key, value, ms, rfl⟩
    · rw [body_leaf _ _ hleaf, body_leaf _ _ hleaf', List.append_assoc, List.append_assoc] at heq
      obtain ⟨rfl, rfl, hrest⟩ :=
        leaf_append_inj (fits_leaf hleaf) (fits_leaf hleaf') (hr.mono hle) (hs.mono hle) heq
      exact ⟨leaf_inj h h' hleaf hleaf', hrest⟩
    · exact absurd heq (leaf_ne_arr hleaf (h'.of_arr _ List.mem_cons_self))
    · exact absurd heq (leaf_ne_obj hleaf (h'.of_obj _ List.mem_cons_self) (hr.mono hle))
  behindKey := by
    intro indent json' r s h' hr hs heq
    rw [valueChars_leaf indent hleaf] at heq
    rcases shape_cases h' with ⟨style', ds, hleaf'⟩ | ⟨item, items, rfl⟩ | ⟨key, value, ms, rfl⟩
    · rw [valueChars_leaf indent hleaf', List.cons_append, List.cons_append, List.append_assoc,
        List.append_assoc] at heq
      obtain ⟨rfl, rfl, hrest⟩ := leaf_append_inj (fits_leaf hleaf) (fits_leaf hleaf')
        (hr.1.mono (by omega)) (hs.1.mono (by omega)) (List.cons.inj heq).2
      exact ⟨leaf_inj h h' hleaf hleaf', hrest⟩
    · rw [valueChars_arr] at heq
      cases heq
    · rw [valueChars_obj] at heq
      cases heq

theorem readable_arr {item : Json} {items : List Json} (h : ∀ a ∈ item :: items, a.Exact)
    (hread : ∀ a ∈ item :: items, Readable a) : Readable (.arr (item :: items)) where
  inPlace := by
    intro indent inner json' r s h' hle hr hs heq
    have hitem := h item List.mem_cons_self
    rcases shape_cases h' with ⟨style, cs, hleaf⟩ | ⟨item', items', rfl⟩ | ⟨key, value, ms, rfl⟩
    · exact absurd heq.symm (leaf_ne_arr hleaf hitem)
    · have hitems : itemChars indent (item :: items) ++ r =
          itemChars indent (item' :: items') ++ s := by
        rw [itemChars_eq indent inner, itemChars_eq indent inner, List.append_assoc, heq,
          List.append_assoc]
      obtain ⟨hlist, hrest⟩ := itemChars_append_inj h hread h'.of_arr hr.follows hs.follows hitems
      exact ⟨congrArg Json.arr hlist, hrest⟩
    · exact absurd heq (arr_ne_obj hitem)
  behindKey := by
    intro indent json' r s h' hr hs heq
    rcases shape_cases h' with ⟨style, cs, hleaf⟩ | ⟨item', items', rfl⟩ | ⟨key, value, ms, rfl⟩
    · rw [valueChars_arr, valueChars_leaf indent hleaf] at heq
      cases heq
    · rw [valueChars_arr, valueChars_arr] at heq
      obtain ⟨hlist, hrest⟩ :=
        itemChars_append_inj h hread h'.of_arr hr hs (List.cons.inj heq).2
      exact ⟨congrArg Json.arr hlist, hrest⟩
    · exact absurd heq valueChars_arr_ne_obj

theorem readable_obj {m : String × Json} {ms : Members} (h : ∀ a ∈ m :: ms, a.2.Exact)
    (hread : ∀ a ∈ m :: ms, Readable a.2) : Readable (.obj (m :: ms)) where
  inPlace := by
    intro indent inner json' r s h' hle hr hs heq
    have hvalue := h m List.mem_cons_self
    rcases shape_cases h' with ⟨style, cs, hleaf⟩ | ⟨item, items, rfl⟩ | ⟨key, value, ms', rfl⟩
    · exact absurd heq.symm (leaf_ne_obj hleaf hvalue (hs.mono hle))
    · exact absurd heq.symm (arr_ne_obj (h'.of_arr _ List.mem_cons_self))
    · have hmembers : memberChars indent (m :: ms) ++ r =
          memberChars indent ((key, value) :: ms') ++ s := by
        rw [memberChars_eq indent inner, memberChars_eq indent inner, List.append_assoc, heq,
          List.append_assoc]
      obtain ⟨hlist, hrest⟩ := memberChars_append_inj h hread h'.of_obj hr hs hmembers
      exact ⟨congrArg Json.obj hlist, hrest⟩
  behindKey := by
    intro indent json' r s h' hr hs heq
    rcases shape_cases h' with ⟨style, cs, hleaf⟩ | ⟨item, items, rfl⟩ | ⟨key, value, ms', rfl⟩
    · rw [valueChars_obj, valueChars_leaf indent hleaf] at heq
      cases heq
    · exact absurd heq.symm valueChars_arr_ne_obj
    · rw [valueChars_obj, valueChars_obj] at heq
      obtain ⟨hlist, hrest⟩ := memberChars_append_inj h hread h'.of_obj (hr.1.mono (by omega))
        (hs.1.mono (by omega)) (List.cons.inj heq).2
      exact ⟨congrArg Json.obj hlist, hrest⟩

theorem readable {json : Json} (h : json.Exact) : Readable json := by
  induction h with
  | null => exact readable_leaf .null rfl
  | bool b => cases b <;> exact readable_leaf (.bool _) rfl
  | int hlow hhigh => exact readable_leaf (.int hlow hhigh) rfl
  | str s => exact readable_leaf (.str s) rfl
  | @arr items h ih =>
      cases items with
      | nil => exact readable_leaf (.arr h) rfl
      | cons item items => exact readable_arr h ih
  | @obj ms h ih =>
      cases ms with
      | nil => exact readable_leaf (.obj h) rfl
      | cons m ms => exact readable_obj h ih

theorem render_injective {json json' : Json} (h : json.Exact) (h' : json'.Exact)
    (heq : render json = render json') : json = json' := by
  rw [render_eq h, render_eq h'] at heq
  have hbody := String.ofList_injective heq
  exact ((readable h).inPlace (r := []) (s := []) h' (Nat.zero_le 2) (.inl rfl) (.inl rfl)
    (by rw [hbody])).1

end McpOperator.Yaml
