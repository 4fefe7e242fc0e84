import Jolt.Proofs.Token.Classes

/-!
# Blanks between tokens

Blanks that are put before a token of a source change nothing of what the source says, with one exception: a space right
behind `out`, `type` or `if`, where it was a name, makes a keyword of it.

The tokens before the place stay if their kinds still take them with the new text behind (`Cuts.transfer`), and
`Kind.Takes` shows how little a kind sees of that text: its first byte, whether it is empty, and whether a `>` is in it.

Main statement (`scan_blanks_iff`): the kinds and texts of the tokens stay the same exactly if the exception is not met.
-/

namespace Jolt.Token

open Grammar (lexeme)

/-- Behind a token, the text `y` is `x` with blanks put in: it starts as `x` does or with a blank. -/
structure Spaced (x y : Text) : Prop where
  ne_nil : x ≠ []
  greater : Byte.greater ∉ x → Byte.greater ∉ y
  head : ∀ b ∈ y.head?, b ∈ x.head? ∨ Text.isBlank b = true
  space : x.head? = some Byte.space → y.head? = some Byte.space

section Spaced

variable {x y : Text}

theorem Spaced.append_left (h : Spaced x y) (t : Text) : Spaced (t ++ x) (t ++ y) := by
  cases t with
  | nil => exact h
  | cons c t =>
    refine ⟨by simp, fun hx => ?_, fun b hb => .inl hb, id⟩
    rw [List.mem_append, not_or] at hx ⊢
    exact ⟨hx.1, h.greater hx.2⟩

theorem not_isDigit_of_isBlank {b : UInt8} (h : Text.isBlank b = true) : Text.isDigit b = false ∧ Text.isLetter b = false := by
  revert h
  simp only [Text.isBlank, Text.isDigit, Text.isLetter]
  grind

/-- A kind that takes a text before `x` takes it before `y`, unless that makes a keyword of a name. -/
theorem Kind.Takes.transfer {kind : Kind} {t : Text} (h : kind.Takes t x) (hxy : Spaced x y)
    (hk : kind = .identifier → t ∈ keywords → y.head? = some Byte.space → x.head? = some Byte.space) :
    kind.Takes t y := by
  -- a byte that does not stand at the front of `x` and is no blank does not stand at the front of `y`
  have hne : ∀ {b : UInt8}, Text.isBlank b = false → x.head? ≠ some b → y.head? ≠ some b := by
    intro b hb hx hy
    rcases hxy.head b hy with h | h
    · exact hx h
    · rw [hb] at h
      cases h
  have hclass : ∀ {p : UInt8 → Bool}, (∀ b, Text.isBlank b = true → p b = false) → (∀ b ∈ x.head?, p b = false) →
      ∀ b ∈ y.head?, p b = false := by
    intro p hp hx b hb
    exact (hxy.head b hb).elim (hx b) (hp b)
  cases kind with
  | number =>
    obtain ⟨hx, whole, hwhole, hdigits, ht⟩ := h
    exact ⟨hclass (fun _ hb => (not_isDigit_of_isBlank hb).1) hx, whole, hwhole, hdigits,
      ht.imp_left fun ht => ⟨ht.1, hne (by decide) ht.2⟩⟩
  | identifier =>
    obtain ⟨ht, hletters, hx, hkey⟩ := h
    exact ⟨ht, hletters, hclass (fun _ hb => (not_isDigit_of_isBlank hb).2) hx,
      fun hy => hkey ⟨hy.1, hk rfl hy.1 hy.2⟩⟩
  | string =>
    obtain ⟨w, hw, ht | ht⟩ := h
    · exact ⟨w, hw, .inl ht⟩
    · exact absurd ht.2 hxy.ne_nil
  | output | type | condition => exact ⟨h.1, hxy.space h.2⟩
  | binaryOperator => exact ⟨h.1, hne (by decide) h.2⟩
  | equals => exact ⟨h.1, fun ht => hne (by decide) (h.2 ht)⟩
  | comparison => exact ⟨h.1, fun ht => hxy.greater (h.2 ht)⟩
  | endOfInput => exact absurd h.2 hxy.ne_nil
  | comment | unknown | endOfLine | openParen | closedParen | openBlock | closeBlock | question | colon | other => exact h

end Spaced

/-! ## Tokens before other texts -/

/-- A name that a space right behind it makes a keyword. -/
def IsPending (t : Token) : Prop :=
  t.kind = .identifier ∧ t.text ∈ keywords

/-- The tokens of a text stay when other text comes behind it, unless that makes a keyword of the last one. -/
theorem Cuts.transfer {x y t : Text} {p : Position} {ts : List Token} (h : Cuts x p t ts) (hxy : Spaced x y)
    (hk : y.head? = some Byte.space → x.head? = some Byte.space ∨
      ∀ v ∈ ts.getLast?, v.finish = p.offset + t.length → ¬ v.IsPending) :
    Cuts y p t ts := by
  induction h with
  | nil p => exact .nil p
  | @blank p c t ts hc _ ih =>
    refine .blank hc (ih fun hy => (hk hy).imp_right fun hlast v hv hfinish => hlast v hv ?_)
    rw [hfinish, Position.offset_after, List.length_cons]
    omega
  | @token p c r t kind ts hc hclassify hrest ih =>
    have htakes : kind.Takes (c :: r) (t ++ y) := by
      refine ((classify_eq_iff hc).1 hclassify).transfer (hxy.append_left t) fun hkind htext hy => ?_
      cases t with
      | cons b t => exact hy
      | nil =>
        cases hrest
        refine (hk hy).resolve_right fun hlast => hlast _ rfl ?_ ⟨hkind, htext⟩
        simp [finish]
    refine .token hc ((classify_eq_iff hc).2 htakes) (ih fun hy => (hk hy).imp_right fun hlast v hv hfinish => ?_)
    refine hlast v ?_ ?_
    · cases ts with
      | nil => cases hv
      | cons u ts => rwa [List.getLast?_cons_cons]
    · rw [hfinish, Position.offset_advance]
      simp only [List.length_cons, List.length_append]
      omega

theorem Scans.blanks {p : Position} {w t : Text} {ts : List Token} (hw : ∀ b ∈ w, Text.isBlank b = true)
    (h : Scans (p.advance w) t ts) : Scans p (w ++ t) ts := by
  induction w generalizing p with
  | nil => exact h
  | cons b w ih =>
    obtain ⟨hb, hw⟩ := List.forall_mem_cons.1 hw
    exact .blank hb (ih hw h)

/-- Blanks before a text change the places of its tokens only. -/
theorem Scans.exists_blanks {q : Position} {t : Text} {ts : List Token} (h : Scans q t ts) (p : Position) {w : Text}
    (hw : ∀ b ∈ w, Text.isBlank b = true) : ∃ us, Scans p (w ++ t) us ∧ us.map lexeme = ts.map lexeme := by
  obtain ⟨us, hs, hu⟩ := Grammar.map_lexeme_of_scans h (p.advance w)
  exact ⟨us, hs.blanks hw, hu⟩

theorem Scans.map_lexeme_scan {source : Text} {ts : List Token} (h : Scans .start source ts) :
    (scan source).map lexeme = ts.map lexeme ++ [(.endOfInput, [])] := by
  rw [scan, h.scanFrom_eq, List.map_append]
  rfl

/-! ## Blanks put into a source -/

section Insert

variable {w : Text} (hw : ∀ b ∈ w, Text.isBlank b = true)

include hw

theorem greater_not_mem_blanks : Byte.greater ∉ w := by
  intro h
  cases hw _ h

/-- A text that starts with a token, and blanks before it. -/
theorem spaced_blanks {c : UInt8} (hc : Text.isBlank c = false) (x : Text) : Spaced (c :: x) (w ++ c :: x) where
  ne_nil := by simp
  greater hx := by simp [greater_not_mem_blanks hw, hx]
  head b hb := by
    cases w with
    | nil => exact .inl hb
    | cons b' w =>
      obtain rfl : b' = b := by simpa using hb
      exact .inr (hw b' List.mem_cons_self)
  space hx := by
    obtain rfl : c = Byte.space := by simpa using hx
    cases hc

/-- Blanks before a token leave the tokens as they are, unless they make a keyword of the one before. -/
theorem Scans.insert_blanks {before x : Text} {c : UInt8} {p : Position} {ts us : List Token}
    (hcuts : Cuts (c :: x) p before ts) (hx : Scans (p.advance before) (c :: x) us) (hc : Text.isBlank c = false)
    (hk : w.head? = some Byte.space → ∀ v ∈ ts.getLast?, v.finish = p.offset + before.length → ¬ v.IsPending) :
    ∃ all, Scans p (before ++ (w ++ c :: x)) all ∧ all.map lexeme = (ts ++ us).map lexeme := by
  have hcuts' : Cuts (w ++ c :: x) p before ts := by
    refine hcuts.transfer (spaced_blanks hw hc x) fun hy => ?_
    cases w with
    | nil => exact .inl hy
    | cons b w => exact .inr (hk hy)
  obtain ⟨us', hus, hlexemes⟩ := hx.exists_blanks (p.advance before) hw
  exact ⟨ts ++ us', hcuts'.scans hus, by rw [List.map_append, List.map_append, hlexemes]⟩

/-- A space right behind a name that is spelled as a keyword makes it one. -/
theorem Scans.insert_pending {before r rest : Text} {c : UInt8} {p : Position} {ts us : List Token}
    (hcuts : Cuts (c :: (r ++ rest)) p before ts) (hc : Text.isBlank c = false) (hk : c :: r ∈ keywords) {q : Position}
    (hrest : Scans q rest us) (hspace : w.head? = some Byte.space) :
    ∃ kind all, kind ≠ .identifier ∧ Scans p (before ++ c :: (r ++ (w ++ rest))) all ∧
      all.map lexeme = ts.map lexeme ++ (kind, c :: r) :: us.map lexeme := by
  obtain ⟨kind, hkind⟩ : ∃ kind, keyword? (c :: r) = some kind :=
    Option.ne_none_iff_exists'.1 (mt keyword?_eq_none.1 (not_not_intro hk))
  have hcuts' : Cuts (c :: (r ++ (w ++ rest))) p before ts := by
    refine hcuts.transfer ⟨by simp, fun hx => ?_, fun b hb => .inl hb, id⟩ .inl
    have := greater_not_mem_blanks hw
    simp_all
  have hfirst : (w ++ rest).head? = some Byte.space := by rw [List.head?_append, hspace]; rfl
  obtain ⟨us', hus, hlexemes⟩ := hrest.exists_blanks ((p.advance before).advance (c :: r)) hw
  refine ⟨kind, _, ?_, hcuts'.scans (.token hc (classify_keyword hkind hfirst) hus), ?_⟩
  · rcases keyword?_kind hkind with h | h | h <;> simp [h]
  · rw [List.map_append, List.map_cons, hlexemes]
    rfl

end Insert

/-- **Blanks before a token do not matter.** The kinds and texts of the tokens of a source stay the same when blanks are
put before one of them, exactly if these do not start with a space right behind a name that is spelled as a keyword. -/
theorem scan_blanks_iff {source w : Text} {ts us : List Token} {t : Token} (h : scan source = ts ++ t :: us)
    (ht : t.kind ≠ .endOfInput) (hw : ∀ b ∈ w, Text.isBlank b = true) :
    (scan (source.take t.position.offset ++ w ++ source.drop t.position.offset)).map lexeme = (scan source).map lexeme ↔
      ¬ (w.head? = some Byte.space ∧
        ∃ v, ts.getLast? = some v ∧ v.finish = t.position.offset ∧ v.kind = .identifier ∧ v.text ∈ keywords) := by
  obtain ⟨more, -, hs⟩ := (scan_eq_append h).resolve_left fun hend => ht (by rw [hend.1])
  rw [hs.map_lexeme_scan]
  constructor
  · rintro hsame ⟨hspace, v, hv, hfinish, hkind, htext⟩
    obtain ⟨ts, rfl⟩ := List.getLast?_eq_some_iff.1 hv
    rw [List.append_assoc, List.singleton_append] at hs
    obtain ⟨before, c, r, rest, rfl, hcuts, hc, hv', -, hrest⟩ := hs.split
    have hword : v.text = c :: r := by rw [hv']
    have hoffset : t.position.offset = (before ++ c :: r).length := by
      rw [← hfinish, finish, hv']
      simp [Position.start]
    have hsource : before ++ c :: (r ++ rest) = (before ++ c :: r) ++ rest := by simp
    obtain ⟨kind, all, hne, hall, hlexemes⟩ := Scans.insert_pending hw hcuts hc (hword ▸ htext) hrest hspace
    rw [hoffset, hsource, List.take_left, List.drop_left, List.append_assoc, List.append_assoc, List.cons_append,
      hall.map_lexeme_scan, hlexemes] at hsame
    -- the lists agree up to the name, which is a keyword in one of them
    simp [lexeme, hkind, hne] at hsame
  · intro hk
    obtain ⟨before, c, r, rest, rfl, hcuts, hc, htoken, hclassify, hrest⟩ := hs.split
    have hoffset : t.position.offset = before.length := by rw [htoken]; simp [Position.start]
    have hx : Scans (Position.start.advance before) (c :: (r ++ rest)) (t :: more) := by
      rw [htoken] at hrest ⊢
      exact .token hc hclassify hrest
    obtain ⟨all, hall, hlexemes⟩ := Scans.insert_blanks hw hcuts hx hc fun hspace v hv hfinish hpending =>
      hk ⟨hspace, v, hv, by rw [hfinish, hoffset]; simp [Position.start], hpending⟩
    rw [hoffset, List.take_left, List.drop_left, List.append_assoc, hall.map_lexeme_scan, hlexemes]

/-- A space between a name and the parenthesis behind it. -/
theorem scan_blanks_iff_name :
    scan (utf8 "1<if(") =
        [⟨utf8 "1", .number, ⟨0, 1, 1⟩⟩, ⟨utf8 "<", .comparison, ⟨1, 1, 2⟩⟩, ⟨utf8 "if", .identifier, ⟨2, 1, 3⟩⟩] ++
          ⟨utf8 "(", .openParen, ⟨4, 1, 5⟩⟩ :: [⟨[], .endOfInput, ⟨5, 1, 6⟩⟩] ∧
      Kind.openParen ≠ .endOfInput ∧ (∀ b ∈ [Byte.space], Text.isBlank b = true) ∧
      ((scan ((utf8 "1<if(").take 4 ++ [Byte.space] ++ (utf8 "1<if(").drop 4)).map lexeme =
          (scan (utf8 "1<if(")).map lexeme ↔
        ¬ ([Byte.space].head? = some Byte.space ∧
          ∃ v : Token, [⟨utf8 "1", .number, ⟨0, 1, 1⟩⟩, ⟨utf8 "<", .comparison, ⟨1, 1, 2⟩⟩,
              ⟨utf8 "if", .identifier, ⟨2, 1, 3⟩⟩].getLast? = some v ∧
            v.finish = 4 ∧ v.kind = .identifier ∧ v.text ∈ keywords)) := by
  have h : scan (utf8 "1<if(") =
      [⟨utf8 "1", .number, ⟨0, 1, 1⟩⟩, ⟨utf8 "<", .comparison, ⟨1, 1, 2⟩⟩, ⟨utf8 "if", .identifier, ⟨2, 1, 3⟩⟩] ++
        ⟨utf8 "(", .openParen, ⟨4, 1, 5⟩⟩ :: [⟨[], .endOfInput, ⟨5, 1, 6⟩⟩] := by decide +kernel
  have hw : ∀ b ∈ [Byte.space], Text.isBlank b = true := List.forall_mem_singleton.2 rfl
  exact ⟨h, by decide, hw, scan_blanks_iff h (by decide) hw⟩

end Jolt.Token
