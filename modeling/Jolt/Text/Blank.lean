import Jolt.Text.Utf8

/-!
# White space around a text

`Text.trim` takes the characters with the property White_Space off both ends. A byte that belongs to no character is
never white space. There is nothing to take off a text of visible ASCII bytes (`Text.trim_of_visible`).
-/

namespace Jolt.Text

/-- The property White_Space. -/
def isWhiteSpace (c : Char) : Bool :=
  (9 ≤ c.val && c.val ≤ 13) || c.val == 0x20 || c.val == 0x85 || c.val == 0xa0 || c.val == 0x1680
    || (0x2000 ≤ c.val && c.val ≤ 0x200a) || c.val == 0x2028 || c.val == 0x2029 || c.val == 0x202f
    || c.val == 0x205f || c.val == 0x3000

/-- A white space character. -/
def Symbol.isBlank : Symbol → Bool
  | char c => isWhiteSpace c
  | stray _ => false

/-- A text without the white space at its ends. -/
def trim (t : Text) : Text :=
  ofSymbols ((((symbols t).dropWhile Symbol.isBlank).reverse.dropWhile Symbol.isBlank).reverse)

/-! ## Visible bytes -/

/-- A byte that stands for a visible ASCII character. -/
def IsVisible (b : UInt8) : Prop :=
  33 ≤ b.toNat ∧ b.toNat < 128

/-- The symbol of an ASCII byte. -/
def asciiSymbol (b : UInt8) : Symbol :=
  .char (Char.ofNat b.toNat)

theorem ascii_facts : ∀ n : Fin 128, String.utf8EncodeChar (Char.ofNat n) = [UInt8.ofNat n] ∧
    (Char.ofNat n).utf8Size = 1 ∧ (33 ≤ n.val → isWhiteSpace (Char.ofNat n) = false) := by
  decide +kernel

theorem bytes_asciiSymbol {b : UInt8} (h : IsVisible b) : (asciiSymbol b).bytes = [b] := by
  have := (ascii_facts ⟨b.toNat, h.2⟩).1
  simpa [asciiSymbol, Symbol.bytes] using this

theorem isBlank_asciiSymbol {b : UInt8} (h : IsVisible b) : (asciiSymbol b).isBlank = false :=
  (ascii_facts ⟨b.toNat, h.2⟩).2.2 h.1

theorem symbols_of_visible {t : Text} (h : ∀ b ∈ t, IsVisible b) : symbols t = t.map asciiSymbol := by
  induction t with
  | nil => rw [symbols]; rfl
  | cons b t ih =>
    have hb := h b List.mem_cons_self
    have hlt : b < 128 := UInt8.lt_iff_toNat_lt.2 hb.2
    have hfirst : firstChar? (b :: t) = some (Char.ofNat b.toNat) := by simp [firstChar?, hlt]
    have hsize : (Char.ofNat b.toNat).utf8Size = 1 := (ascii_facts ⟨b.toNat, hb.2⟩).2.1
    rw [symbols, hfirst]
    simp only [hsize, Nat.sub_self, List.drop_zero, ih fun c hc => h c (List.mem_cons_of_mem _ hc)]
    rfl

/-- There is nothing to take off a text of visible bytes. -/
theorem trim_of_visible {t : Text} (h : ∀ b ∈ t, IsVisible b) : t.trim = t := by
  have hkeep : ∀ u : Text, (∀ b ∈ u, IsVisible b) → (u.map asciiSymbol).dropWhile Symbol.isBlank = u.map asciiSymbol := by
    intro u hu
    cases u with
    | nil => rfl
    | cons b u => simp [isBlank_asciiSymbol (hu b List.mem_cons_self)]
  have hback : ∀ u : Text, (∀ b ∈ u, IsVisible b) → ofSymbols (u.map asciiSymbol) = u := by
    intro u hu
    induction u with
    | nil => rfl
    | cons b u ih =>
      have hb := bytes_asciiSymbol (hu b List.mem_cons_self)
      have hrest := ih fun c hc => hu c (List.mem_cons_of_mem _ hc)
      simp only [ofSymbols, List.map_cons, List.flatMap_cons] at hrest ⊢
      rw [hb, hrest, List.singleton_append]
  rw [trim, symbols_of_visible h, hkeep t h, ← List.map_reverse, hkeep _ fun b hb => h b (List.mem_reverse.1 hb),
    List.map_reverse, List.reverse_reverse, hback t h]

end Jolt.Text
