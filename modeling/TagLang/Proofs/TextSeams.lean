import TagLang.Proofs.TextPositions

/-! Texts put end to end. The code points are those of the two parts, unless the first part ends in a high surrogate
and the second one starts with a low one: those two are one code point of the whole. -/

namespace TagLang.Text

/-- Whether a text counts these code points and shows them, from its start and back from its end. -/
structure Shows (text : Text) (points : List CodePoint) : Prop where
  count : text.size = points.length
  ahead : ∀ steps : Nat, text.codePointAt? steps = points[steps]?
  back : ∀ steps : Nat, text.codePointAt? (-(steps + 1)) = points.reverse[steps]?

theorem shows_codePoints (text : Text) : text.Shows text.codePoints where
  count := rfl
  ahead := text.codePointAt?_ofNat
  back steps := by
    rw [← Int.negSucc_eq]
    exact text.codePointAt?_negSucc steps

/-- Whether a surrogate pair lies across the seam of two texts. -/
structure PairAcross (a b : Text) (high low : UInt16) : Prop where
  last : a.units.getLast? = some high
  first : b.units.head? = some low
  leads : HighSurrogate high
  trails : LowSurrogate low

/-- A low surrogate belongs to nothing after it. -/
theorem decode_cons_low (rest : List UInt16) (low : UInt16) (trails : LowSurrogate low) :
    decode (low :: rest) = .ofUnit low :: decode rest := by
  apply decode_single
  intro next _ joined
  exact ((isPair_iff low next).mp joined).1.not_low trails

theorem codePoints_append (a b : Text) (apart : ∀ high low, ¬ PairAcross a b high low) :
    (a.append b).codePoints = a.codePoints ++ b.codePoints := by
  apply decode_append
  intro high last low first joined
  obtain ⟨leads, trails⟩ := (isPair_iff high low).mp joined
  exact apart high low ⟨last, first, leads, trails⟩

/-- The halves of a pair across the seam are the last code point before and the first one after it. -/
theorem codePoints_append_across (a b : Text) (high low : UInt16) (across : PairAcross a b high low) :
    ∃ front rest, a.codePoints = front ++ [.ofUnit high] ∧ b.codePoints = .ofUnit low :: rest ∧
      (a.append b).codePoints = front ++ .ofPair high low :: rest := by
  obtain ⟨last, first, leads, trails⟩ := across
  obtain ⟨units, before⟩ := List.getLast?_eq_some_iff.mp last
  obtain ⟨others, after⟩ := List.head?_eq_some_iff.mp first
  have paired := (isPair_iff high low).mpr ⟨leads, trails⟩
  refine ⟨decode units, decode others, ?_, ?_, ?_⟩
  · rw [codePoints, before, decode_append_high units [] high leads]
    rfl
  · rw [codePoints, after, decode_cons_low others low trails]
  · have whole : (a.append b).units = units ++ high :: low :: others := by simp [append, before, after]
    rw [codePoints, whole, decode_append_high units _ high leads, decode_pair high low others paired]

/-- If a pair lies across the seam, the whole has one code point less than its parts: it shows those of the first part
without the last, the pair as one, and those of the second part without the first. Otherwise it shows the code points of
the first part and then those of the second. -/
theorem append_at_seam (a b : Text) :
    (∀ high low, PairAcross a b high low →
      (a.append b).size + 1 = a.size + b.size ∧
      ∃ joined : CodePoint, joined.val = 0x10000 + (high.toNat - 0xd800) * 0x400 + (low.toNat - 0xdc00) ∧
        (a.append b).Shows (a.codePoints.dropLast ++ joined :: b.codePoints.tail)) ∧
    ((∀ high low, ¬ PairAcross a b high low) →
      (a.append b).size = a.size + b.size ∧ (a.append b).Shows (a.codePoints ++ b.codePoints)) := by
  have shown := (a.append b).shows_codePoints
  constructor
  · intro high low across
    obtain ⟨front, rest, left, right, whole⟩ := codePoints_append_across a b high low across
    refine ⟨?_, .ofPair high low, ofPair_val high low across.leads across.trails, ?_⟩
    · simp only [size, left, right, whole, List.length_append, List.length_cons, List.length_nil]
      omega
    · simpa [left, right, whole] using shown
  · intro apart
    have whole := codePoints_append a b apart
    refine ⟨?_, whole ▸ shown⟩
    simp [size, whole]

/-- The halves of a pair are joined in this order only, and what stands beside them, another high surrogate and another
low one, is not. -/
theorem append_at_seam_halves :
    let a : Text := ⟨[0xd83d, 0xd83d]⟩
    let b : Text := ⟨[0xde00, 0xde00]⟩
    PairAcross a b 0xd83d 0xde00 ∧ (a.append b).size = 3 ∧
      (∃ joined : CodePoint, joined.val = 0x1f600 ∧
        (a.append b).Shows [.ofUnit 0xd83d, joined, .ofUnit 0xde00]) ∧
      (∀ high low, ¬ PairAcross b a high low) ∧ (b.append a).size = 4 ∧
      (b.append a).Shows [.ofUnit 0xde00, .ofUnit 0xde00, .ofUnit 0xd83d, .ofUnit 0xd83d] := by
  intro a b
  have across : PairAcross a b 0xd83d 0xde00 := ⟨rfl, rfl, by simp [HighSurrogate], by simp [LowSurrogate]⟩
  have apart (high low : UInt16) : ¬ PairAcross b a high low := by
    rintro ⟨⟨⟩, _, leads, _⟩
    simp [HighSurrogate] at leads
  obtain ⟨size, joined, value, shown⟩ := (append_at_seam a b).1 _ _ across
  obtain ⟨sizeApart, shownApart⟩ := (append_at_seam b a).2 apart
  exact ⟨across, Nat.succ.inj size, ⟨joined, value, shown⟩, apart, sizeApart, shownApart⟩

end TagLang.Text
