import McpOperator.Proofs.Yaml.Quoted

namespace McpOperator.Yaml

/-- Text on one line that begins as no other thing does and holds no colon that could end a key. -/
structure Bare (cs : List Char) : Prop where
  begins : ∃ c rest, cs = c :: rest ∧ c ∉ [' ', '\'', '"', '|'] ∧
    (c ∈ ['?', ':', '-'] → rest.head? ≠ some ' ')
  unbroken : ∀ c ∈ cs, isBreak c = false
  colon : ∀ before rest, cs = before ++ ':' :: rest → startsBlank rest = false

/-- What may follow text on its line: the end of the line, or the colon behind a key. -/
def Stops (r : List Char) : Prop := ∃ s, r = '\n' :: s ∨ r = ':' :: s ∧ startsBlank s = true

theorem Bare.eq_nil_of_append {cs r s t : List Char} (h : Bare (cs ++ t)) (hr : Stops r)
    (heq : r = t ++ s) : t = [] := by
  cases t with
  | nil => rfl
  | cons c t =>
      obtain ⟨u, rfl | ⟨rfl, hu⟩⟩ := hr
      · obtain ⟨rfl, -⟩ := List.cons.inj heq
        have := h.unbroken '\n' (by simp)
        cases this
      · obtain ⟨rfl, rfl⟩ := List.cons.inj heq
        have hblank := h.colon cs t rfl
        cases t with
        | nil => cases hblank
        | cons d t => exact absurd (hblank.symm.trans hu) (by decide)

theorem Bare.append_inj {cs ds r s : List Char} (hcs : Bare cs) (hds : Bare ds) (hr : Stops r)
    (hs : Stops s) (h : cs ++ r = ds ++ s) : cs = ds ∧ r = s := by
  rcases List.append_eq_append_iff.1 h with ⟨t, rfl, hrest⟩ | ⟨t, rfl, hrest⟩
  · obtain rfl := hds.eq_nil_of_append hr hrest
    simpa using hrest
  · obtain rfl := hcs.eq_nil_of_append hs hrest
    simpa using hrest.symm

theorem not_startsIndicator {c : Char} {rest : List Char} (h : startsIndicator (c :: rest) = false) :
    c ∉ ['\'', '"', '|'] ∧ (c ∈ ['?', ':', '-'] → startsBlank rest = false) := by
  rw [startsIndicator.eq_def] at h
  split at h
  case h_1 heq => cases heq
  case h_4 heq =>
    obtain ⟨rfl, rfl⟩ := List.cons.inj heq
    simp_all
  all_goals cases h

theorem not_hasInnerIndicator {cs before rest : List Char} (h : hasInnerIndicator cs = false)
    (hbefore : before ≠ []) (hcs : cs = before ++ ':' :: rest) : startsBlank rest = false := by
  subst hcs
  induction before with
  | nil => exact absurd rfl hbefore
  | cons a before ih =>
      cases before with
      | nil => simp_all [hasInnerIndicator]
      | cons b before =>
          simp only [List.cons_append, hasInnerIndicator, Bool.or_eq_false_iff] at h
          exact ih (List.cons_ne_nil b before) h.2

theorem Bare.of_plainAllowed {cs : List Char} (hne : cs ≠ []) (h : plainAllowed cs = true) :
    Bare cs := by
  simp only [plainAllowed, edgeBlank, Bool.not_eq_true', Bool.or_eq_false_iff] at h
  obtain ⟨⟨⟨⟨⟨hedge, -⟩, hbreak⟩, -⟩, hstart⟩, hinner⟩ := h
  cases cs with
  | nil => exact absurd rfl hne
  | cons c rest =>
      obtain ⟨hquote, hsign⟩ := not_startsIndicator hstart
      refine ⟨⟨c, rest, rfl, ?_, fun hc hspace => ?_⟩, ?_, fun before after heq => ?_⟩
      · simp_all [isSpace]
      · have hblank := hsign hc
        cases rest with
        | nil => cases hspace
        | cons d rest =>
            cases hspace
            cases hblank
      · simpa using hbreak
      · cases before with
        | nil =>
            obtain ⟨rfl, rfl⟩ := List.cons.inj heq
            exact hsign (by simp)
        | cons d before => exact not_hasInnerIndicator hinner (List.cons_ne_nil d before) heq

def isTame (c : Char) : Bool := c ∉ [' ', '\'', '"', '|', ':'] && !isBreak c

theorem Bare.of_tame {cs : List Char} (hne : cs ≠ []) (h : cs.all isTame = true) : Bare cs := by
  simp only [List.all_eq_true, isTame, Bool.and_eq_true, decide_eq_true_eq, Bool.not_eq_true'] at h
  refine ⟨?_, fun c hc => (h c hc).2, ?_⟩
  · cases cs with
    | nil => exact absurd rfl hne
    | cons c rest =>
        refine ⟨c, rest, rfl, ?_, fun _ hspace => ?_⟩
        · have := (h c List.mem_cons_self).1
          simp_all
        · have := (h ' ' (List.mem_cons_of_mem _ (List.mem_of_mem_head? hspace))).1
          simp at this
  · rintro before rest rfl
    have := (h ':' (by simp)).1
    simp at this

def styled (style : Style) (indent : Nat) (cs : List Char) : List Char :=
  match style with
  | .plain => cs
  | .singleQuoted => '\'' :: singleQuotedBody indent false cs
  | .doubleQuoted => '"' :: doubleQuotedBody cs ++ ['"']
  | .literal => '|' :: literalHints cs ++ '\n' :: literalBody indent true cs

def Fits : Style → List Char → Prop
  | .plain, cs => Bare cs
  | .literal, cs => cs ≠ []
  | .singleQuoted, _ | .doubleQuoted, _ => True

theorem fits_style (isKey : Bool) (cs : List Char) : Fits (style isKey cs) cs := by
  rw [style]
  split
  · rename_i hbreak
    split
    · rintro rfl
      cases hbreak
    · trivial
  · split
    · rename_i h
      simp only [Bool.and_eq_true, Bool.not_eq_true'] at h
      refine Bare.of_plainAllowed ?_ h.2
      rintro rfl
      cases h.1
    · split <;> trivial

/-- What may follow a scalar: behind a block the lines are indented less. -/
def Behind (indent : Nat) : Style → List Char → List Char → Prop
  | .literal, cs, r => ∃ s, Below indent s ∧ r = lineEnd cs ++ s
  | .plain, _, r | .singleQuoted, _, r | .doubleQuoted, _, r => Stops r

theorem Stops.head_ne {r : List Char} (h : Stops r) : r.head? ≠ some ' ' ∧ r.head? ≠ some '\'' := by
  obtain ⟨s, rfl | ⟨rfl, -⟩⟩ := h <;> simp

/-- The style is told by the first character. -/
def styleOf : List Char → Style
  | '\'' :: _ => .singleQuoted
  | '"' :: _ => .doubleQuoted
  | '|' :: _ => .literal
  | _ => .plain

theorem styleOf_styled {style : Style} {indent : Nat} {cs r : List Char} (h : Fits style cs) :
    styleOf (styled style indent cs ++ r) = style := by
  cases style with
  | plain =>
      obtain ⟨c, rest, rfl, hc, -⟩ := h.begins
      simp only [List.mem_cons, not_or] at hc
      simp [styled, styleOf, hc]
  | singleQuoted | doubleQuoted | literal => rfl

theorem styled_append_inj {style style' : Style} {indent : Nat} {cs ds r s : List Char}
    (hcs : Fits style cs) (hds : Fits style' ds) (hr : Behind indent style cs r)
    (hs : Behind indent style' ds s)
    (h : styled style indent cs ++ r = styled style' indent ds ++ s) :
    style = style' ∧ cs = ds ∧ r = s := by
  obtain rfl : style = style' := by
    rw [← styleOf_styled hcs, h, styleOf_styled hds]
  refine ⟨rfl, ?_⟩
  cases style with
  | plain => exact hcs.append_inj hds hr hs h
  | singleQuoted =>
      exact singleQuoted_append_inj hr.head_ne.2 hs.head_ne.2 (List.cons.inj h).2
  | doubleQuoted => exact doubleQuoted_append_inj (List.cons.inj h).2
  | literal =>
      obtain ⟨t, ht, rfl⟩ := hr
      obtain ⟨u, hu, rfl⟩ := hs
      obtain ⟨rfl, rfl⟩ := literal_append_inj hcs hds ht hu (List.cons.inj h).2
      exact ⟨rfl, rfl⟩

theorem lineEnd_of_suffix {cs : List Char} {c : Char} (h : [c] <:+ cs) :
    lineEnd cs = if isBreak c then [] else ['\n'] := by
  obtain ⟨before, rfl⟩ := h
  rw [lineEnd, List.getLast?_append, List.getLast?_singleton, Option.some_or, Option.any_some]

theorem suffix_singleQuotedBody (indent : Nat) (fresh : Bool) (cs : List Char) :
    ['\''] <:+ singleQuotedBody indent fresh cs := by
  induction cs generalizing fresh with
  | nil => exact List.suffix_append ..
  | cons c cs ih =>
      rw [singleQuotedBody]
      split
      · exact (ih true).trans (List.suffix_cons ..)
      · exact (ih false).trans (List.suffix_append ..)

theorem suffix_literalBody (indent : Nat) (fresh : Bool) {cs : List Char} {d : Char}
    (h : [d] <:+ cs) : [d] <:+ literalBody indent fresh cs := by
  obtain ⟨before, rfl⟩ := h
  induction before generalizing fresh with
  | nil =>
      rw [List.nil_append, literalBody]
      split
      · exact List.suffix_refl _
      · exact List.suffix_append ..
  | cons c before ih =>
      rw [List.cons_append, literalBody]
      split
      · exact (ih true).trans (List.suffix_cons ..)
      · exact (ih false).trans ((List.suffix_cons ..).trans (List.suffix_append ..))

def ending : Style → List Char → List Char
  | .literal, cs => lineEnd cs
  | .plain, _ | .singleQuoted, _ | .doubleQuoted, _ => ['\n']

theorem lineEnd_styled {style : Style} {indent : Nat} {cs : List Char} (h : Fits style cs)
    (before : List Char) : lineEnd (before ++ styled style indent cs) = ending style cs := by
  have hlast : ∀ {c}, [c] <:+ styled style indent cs →
      lineEnd (before ++ styled style indent cs) = if isBreak c then [] else ['\n'] :=
    fun h => lineEnd_of_suffix (h.trans (List.suffix_append ..))
  cases style with
  | plain =>
      have hne : cs ≠ [] := by
        rintro rfl
        obtain ⟨c, rest, heq, -⟩ := h.begins
        cases heq
      have hsuffix : [cs.getLast hne] <:+ cs := ⟨_, List.dropLast_concat_getLast hne⟩
      rw [hlast hsuffix, h.unbroken _ (List.getLast_mem hne)]
      rfl
  | singleQuoted =>
      rw [hlast ((suffix_singleQuotedBody indent false cs).trans (List.suffix_cons ..))]
      rfl
  | doubleQuoted =>
      rw [hlast (List.suffix_append ..)]
      rfl
  | literal =>
      have hsuffix : [cs.getLast h] <:+ cs := ⟨_, List.dropLast_concat_getLast h⟩
      rw [ending, lineEnd_of_suffix hsuffix]
      exact hlast ((suffix_literalBody indent true hsuffix).trans
        ((List.suffix_cons ..).trans (List.suffix_append ..)))

theorem endLine_styled {style : Style} (indent : Nat) {cs : List Char} (h : Fits style cs)
    (before : List Char) : endLine (before ++ styled style indent cs) =
      before ++ (styled style indent cs ++ ending style cs) := by
  rw [endLine_eq, lineEnd_styled h, List.append_assoc]

theorem behind_ending {style : Style} {indent : Nat} {r : List Char} (cs : List Char)
    (h : Below indent r) : Behind indent style cs (ending style cs ++ r) := by
  cases style with
  | literal => exact ⟨r, h, rfl⟩
  | plain | singleQuoted | doubleQuoted => exact ⟨r, .inl rfl⟩

theorem styled_eq {style : Style} (m n : Nat) {cs : List Char} (hstyle : style ≠ .literal)
    (h : ∀ c ∈ cs, isBreak c = false) : styled style m cs = styled style n cs := by
  cases style with
  | plain | doubleQuoted => rfl
  | literal => exact absurd rfl hstyle
  | singleQuoted =>
      have hbody : singleQuotedBody m false cs = singleQuotedBody n false cs := by
        induction cs with
        | nil => rfl
        | cons c cs ih =>
            have hc := h c List.mem_cons_self
            simp [singleQuotedBody, hc, ih fun d hd => h d (List.mem_cons_of_mem c hd)]
      rw [styled, styled, hbody]

end McpOperator.Yaml
