import Mathlib.Data.List.Basic
import TagLang.Text.Basic

/-! Positions in a text. Units have one reading as code points. A step to the next or the previous unit position where
a code point starts, taken where one starts or at the end, leads over one code point of that reading, so a position
counts the same ones from either end. -/

namespace TagLang

attribute [ext] CodePoint

namespace Text

def HighSurrogate (unit : UInt16) : Prop := 0xd800 ≤ unit.toNat ∧ unit.toNat < 0xdc00

def LowSurrogate (unit : UInt16) : Prop := 0xdc00 ≤ unit.toNat ∧ unit.toNat < 0xe000

theorem HighSurrogate.not_low {unit : UInt16} (leads : HighSurrogate unit) : ¬ LowSurrogate unit :=
  fun trails => Nat.not_lt_of_le trails.1 leads.2

/-- The reading of units from left to right. A high surrogate right before a low one is one supplementary code point
with it, and every other unit is the code point of its own value. -/
inductive Decoding : List UInt16 → List CodePoint → Prop
  | nil : Decoding [] []
  | pair {high low : UInt16} {point : CodePoint} {units : List UInt16} {points : List CodePoint}
      (leads : HighSurrogate high) (trails : LowSurrogate low)
      (value : point.val = 0x10000 + (high.toNat - 0xd800) * 0x400 + (low.toNat - 0xdc00))
      (rest : Decoding units points) : Decoding (high :: low :: units) (point :: points)
  | single {unit : UInt16} {point : CodePoint} {units : List UInt16} {points : List CodePoint}
      (unpaired : ∀ low ∈ units.head?, ¬ (HighSurrogate unit ∧ LowSurrogate low))
      (value : point.val = unit.toNat) (rest : Decoding units points) : Decoding (unit :: units) (point :: points)

theorem isHigh_iff (unit : UInt16) : isHigh unit = true ↔ HighSurrogate unit := by
  simp only [isHigh, HighSurrogate, Bool.and_eq_true, decide_eq_true_eq, UInt16.le_iff_toNat_le, UInt16.toNat_ofNat]
  omega

theorem isLow_iff (unit : UInt16) : isLow unit = true ↔ LowSurrogate unit := by
  simp only [isLow, LowSurrogate, Bool.and_eq_true, decide_eq_true_eq, UInt16.le_iff_toNat_le, UInt16.toNat_ofNat]
  omega

theorem isPair_iff (high low : UInt16) :
    (isHigh high && isLow low) = true ↔ HighSurrogate high ∧ LowSurrogate low := by
  rw [Bool.and_eq_true, isHigh_iff, isLow_iff]

theorem not_isLow_of_isHigh (unit : UInt16) (high : isHigh unit = true) : isLow unit = false := by
  rw [Bool.eq_false_iff, Ne, isLow_iff]
  rw [isHigh_iff] at high
  exact high.not_low

theorem ofPair_val (high low : UInt16) (leads : HighSurrogate high) (trails : LowSurrogate low) :
    (CodePoint.ofPair high low).val = 0x10000 + (high.toNat - 0xd800) * 0x400 + (low.toNat - 0xdc00) := by
  obtain ⟨_, _⟩ := leads
  obtain ⟨_, _⟩ := trails
  simp only [CodePoint.ofPair]
  omega

theorem decode_single (unit : UInt16) (units : List UInt16)
    (unpaired : ∀ low ∈ units.head?, ¬ (isHigh unit && isLow low) = true) :
    decode (unit :: units) = .ofUnit unit :: decode units := by
  cases units with
  | nil => rfl
  | cons low rest => rw [decode, if_neg (unpaired low rfl)]

theorem decode_pair (high low : UInt16) (units : List UInt16) (paired : (isHigh high && isLow low) = true) :
    decode (high :: low :: units) = .ofPair high low :: decode units := by
  rw [decode, if_pos paired]

/-- `decode` finds the reading that units have, and there is no other. -/
theorem decoding_iff (units : List UInt16) (points : List CodePoint) :
    Decoding units points ↔ points = decode units := by
  constructor
  · intro decoding
    induction decoding with
    | nil => rfl
    | pair leads trails value _ decoded =>
      rw [decode_pair _ _ _ ((isPair_iff _ _).mpr ⟨leads, trails⟩), decoded]
      congr
      exact CodePoint.ext (value.trans (ofPair_val _ _ leads trails).symm)
    | single unpaired value _ decoded =>
      rw [decode_single _ _ fun low next => mt (isPair_iff _ low).mp (unpaired low next), decoded]
      congr
      exact CodePoint.ext value
  · rintro rfl
    fun_induction decode units with
    | case1 => exact .nil
    | case2 unit => exact .single (by simp) rfl .nil
    | case3 high low rest paired decoded =>
      obtain ⟨leads, trails⟩ := (isPair_iff high low).mp paired
      exact .pair leads trails (ofPair_val high low leads trails) decoded
    | case4 high low rest unpaired decoded =>
      refine .single ?_ rfl decoded
      rintro _ ⟨⟩
      exact mt (isPair_iff high low).mpr unpaired

/-- Units can be read in two parts unless a surrogate pair lies across the seam. -/
theorem decode_append (left right : List UInt16)
    (seam : ∀ high ∈ left.getLast?, ∀ low ∈ right.head?, ¬ (isHigh high && isLow low) = true) :
    decode (left ++ right) = decode left ++ decode right := by
  fun_induction decode left with
  | case1 => rfl
  | case2 unit => exact decode_single unit right (seam unit rfl)
  | case3 high low rest paired appended =>
    rw [List.cons_append, List.cons_append, decode_pair high low _ paired, List.cons_append]
    congr
    apply appended
    intro last isLast
    exact seam last (by cases rest with
      | nil => cases isLast
      | cons unit rest => exact isLast)
  | case4 high low rest unpaired appended =>
    have separate : ∀ next ∈ (low :: rest ++ right).head?, ¬ (isHigh high && isLow next) = true := by
      rintro _ ⟨⟩
      exact unpaired
    rw [List.cons_append, decode_single high _ separate, List.cons_append]
    congr
    exact appended seam

/-- A high surrogate belongs to nothing before it. -/
theorem decode_append_high (front rest : List UInt16) (high : UInt16) (leads : HighSurrogate high) :
    decode (front ++ high :: rest) = decode front ++ decode (high :: rest) := by
  have notLow := not_isLow_of_isHigh high ((isHigh_iff high).mpr leads)
  apply decode_append
  rintro last _ _ ⟨⟩ joined
  simp [notLow] at joined

/-- A place between two code points of a text, told by its units before and after: no surrogate pair lies across. -/
structure Split (text : Text) (before after : List UInt16) : Prop where
  whole : text.units = before ++ after
  seam : ∀ high ∈ before.getLast?, ∀ low ∈ after.head?, ¬ (isHigh high && isLow low) = true

/-- The units of one code point. -/
inductive Writes : List UInt16 → CodePoint → Prop
  | single (unit : UInt16) : Writes [unit] (.ofUnit unit)
  | pair (high low : UInt16) (paired : (isHigh high && isLow low) = true) : Writes [high, low] (.ofPair high low)

/-- Two places of a text with one code point between them. -/
structure Step (text : Text) (before passed after : List UInt16) (point : CodePoint) : Prop where
  left : text.Split before (passed ++ after)
  right : text.Split (before ++ passed) after
  writes : Writes passed point

namespace Split

variable {text : Text} {before after : List UInt16}

theorem start (text : Text) : text.Split [] text.units := ⟨rfl, by simp⟩

theorem stop (text : Text) : text.Split text.units [] := ⟨by simp, by simp⟩

variable (split : text.Split before after)
include split

theorem unit? (offset : Nat) : text.units[before.length + offset]? = after[offset]? := by
  rw [split.whole, List.getElem?_append_right (Nat.le_add_right ..), Nat.add_sub_cancel_left]

theorem first? : text.units[before.length]? = after.head? := by
  rw [List.head?_eq_getElem?, ← split.unit? 0, Nat.add_zero]

theorem pointAt?_eq : text.pointAt? before.length = (decode after).head? := by
  unfold pointAt?
  rw [split.first?, split.unit? 1]
  fun_cases decode after with
  | case1 => rfl
  | case2 unit => rfl
  | case3 high low rest paired => exact congrArg some (if_pos paired)
  | case4 high low rest unpaired => exact congrArg some (if_neg unpaired)

theorem step_ahead (going : after ≠ []) :
    ∃ passed rest point, after = passed ++ rest ∧ text.Step before passed rest point := by
  have whole := split.whole
  fun_cases decode after with
  | case1 => exact absurd rfl going
  | case2 unit => exact ⟨[unit], [], _, rfl, split, ⟨by simp [whole], by simp⟩, .single unit⟩
  | case3 high low rest paired =>
    refine ⟨[high, low], rest, _, rfl, split, ⟨by simp [whole], ?_⟩, .pair high low paired⟩
    intro last isLast next _ joined
    obtain rfl : low = last := by simpa using isLast
    exact ((isPair_iff low next).mp joined).1.not_low ((isPair_iff high low).mp paired).2
  | case4 high low rest unpaired =>
    refine ⟨[high], low :: rest, _, rfl, split, ⟨by simp [whole], ?_⟩, .single high⟩
    intro last isLast next isNext
    obtain rfl : high = last := by simpa using isLast
    obtain rfl : low = next := by simpa using isNext
    exact unpaired

/-- A low surrogate can only belong to the unit before it, so no more than that unit has to be seen to know where the
code point before a place starts. -/
theorem step_back (going : before ≠ []) :
    ∃ rest passed point, before = rest ++ passed ∧ text.Step rest passed after point := by
  have whole := split.whole
  obtain ⟨front, unit, rfl⟩ := (List.eq_nil_or_concat' before).resolve_left going
  by_cases paired : ∃ high ∈ front.getLast?, (isHigh high && isLow unit) = true
  · obtain ⟨high, last, paired⟩ := paired
    obtain ⟨rest, rfl⟩ := List.getLast?_eq_some_iff.mp last
    refine ⟨rest, [high, unit], _, by simp, ⟨by simp [whole], ?_⟩, by simpa using split, .pair high unit paired⟩
    intro prior _ next isNext joined
    obtain rfl : high = next := by simpa using isNext
    exact ((isPair_iff high unit).mp paired).1.not_low ((isPair_iff prior high).mp joined).2
  · refine ⟨front, [unit], _, rfl, ⟨by simp [whole], ?_⟩, split, .single unit⟩
    intro prior last next isNext joined
    obtain rfl : unit = next := by simpa using isNext
    exact paired ⟨prior, last, joined⟩

end Split

namespace Step

variable {text : Text} {before passed after : List UInt16} {point : CodePoint}
  (step : text.Step before passed after point)
include step

theorem decode_after : decode (passed ++ after) = point :: decode after := by
  obtain ⟨_, right, writes⟩ := step
  cases writes with
  | single unit => exact decode_single unit after fun low next => right.seam unit (by simp) low next
  | pair high low paired => exact decode_pair high low after paired

theorem decode_before : decode (before ++ passed) = decode before ++ [point] := by
  obtain ⟨left, _, writes⟩ := step
  cases writes with
  | single unit => exact decode_append before [unit] left.seam
  | pair high low paired =>
    rw [decode_append before [high, low] left.seam, decode_pair high low [] paired]
    rfl

theorem nextStart?_eq : text.nextStart? before.length = some (before ++ passed).length := by
  obtain ⟨left, right, writes⟩ := step
  have first := left.first?
  have second := left.unit? 1
  cases writes with
  | single unit =>
    have apart : ¬ (isHigh unit && text.isLowAt (before.length + 1)) = true := by
      rw [isLowAt, second]
      cases after with
      | nil => simp
      | cons low rest => simpa using right.seam unit (by simp) low rfl
    rw [nextStart?, first, List.length_append]
    exact congrArg some (if_neg apart)
  | pair high low paired =>
    have joined : (isHigh high && text.isLowAt (before.length + 1)) = true := by
      rw [isLowAt, second]
      exact paired
    rw [nextStart?, first, List.length_append]
    exact congrArg some (if_pos joined)

theorem prevStart?_eq : text.prevStart? (before ++ passed).length = some before.length := by
  obtain ⟨left, _, writes⟩ := step
  have first := left.first?
  cases writes with
  | single unit =>
    rcases List.eq_nil_or_concat' before with rfl | ⟨front, prior, rfl⟩
    · exact congrArg (Option.map fun _ => 0) first
    · have apart : ¬ (isLow unit && isHigh prior) = true := by
        rw [Bool.and_comm]
        exact left.seam prior (by simp) unit rfl
      have here : text.units[front.length + 1]? = some unit := by simpa using first
      have earlier : text.units[front.length]? = some prior := by simp [left.whole]
      have stepped : text.prevStart? (front.length + 2) = some (front.length + 1) := by
        rw [prevStart?, isHighAt, here, earlier]
        exact congrArg some (if_neg apart)
      simpa using stepped
  | pair high low paired =>
    have here : text.units[before.length + 1]? = some low := left.unit? 1
    have earlier : text.units[before.length]? = some high := first
    rw [Bool.and_comm] at paired
    rw [List.length_append]
    change text.prevStart? (before.length + 2) = some before.length
    rw [prevStart?, isHighAt, here, earlier]
    exact congrArg some (if_pos paired)

end Step

namespace Split

variable {text : Text} {before after : List UInt16}

/-- Steps ahead from a place count the code points after it. -/
theorem ahead (split : text.Split before after) (count : Nat) :
    (steps? text.nextStart? count before.length).bind text.pointAt? = (decode after)[count]? := by
  induction count generalizing before after with
  | zero => exact split.pointAt?_eq.trans List.head?_eq_getElem?
  | succ count later =>
    by_cases ended : after = []
    · have first := split.first?
      rw [ended, List.head?_nil] at first
      simp [steps?, nextStart?, first, ended, decode]
    · obtain ⟨passed, rest, point, rfl, step⟩ := split.step_ahead ended
      rw [steps?, step.nextStart?_eq, step.decode_after, List.getElem?_cons_succ]
      exact later step.right

/-- Steps back from a place count the code points before it. -/
theorem back {before after : List UInt16} (split : text.Split before after) (count : Nat) :
    (steps? text.prevStart? (count + 1) before.length).bind text.pointAt? = (decode before).reverse[count]? := by
  by_cases ended : before = []
  · rw [ended]
    rfl
  · obtain ⟨rest, passed, point, rfl, step⟩ := split.step_back ended
    rw [step.decode_before, List.reverse_append, steps?, step.prevStart?_eq]
    cases count with
    | zero =>
      change text.pointAt? rest.length = some point
      rw [step.left.pointAt?_eq, step.decode_after, List.head?_cons]
    | succ count => exact step.left.back count

end Split

theorem codePointAt?_ofNat (text : Text) (steps : Nat) : text.codePointAt? steps = text.codePoints[steps]? := by
  have shown : text.codePointAt? steps = (steps? text.nextStart? steps 0).bind text.pointAt? := by
    simp [codePointAt?]
  rw [shown]
  exact (Split.start text).ahead steps

theorem codePointAt?_negSucc (text : Text) (steps : Nat) :
    text.codePointAt? (.negSucc steps) = text.codePoints.reverse[steps]? :=
  (Split.stop text).back steps

/-- A text has one reading, and its size is the number of code points there. A position in range shows the code point
that is as many steps away from the start or, if it is negative, back from the end; any other position shows none. -/
theorem codePointAt?_both_ends (text : Text) :
    ∃ points, (∀ other, Decoding text.units other ↔ other = points) ∧ text.size = points.length ∧
      ∀ position : Int, text.codePointAt? position =
        if 0 ≤ position ∧ position < text.size then points[position.toNat]?
        else if -text.size ≤ position ∧ position < 0 then points[(text.size + position).toNat]?
        else none := by
  refine ⟨text.codePoints, decoding_iff text.units, rfl, ?_⟩
  intro position
  have counted : text.size = text.codePoints.length := rfl
  cases position with
  | ofNat steps =>
    rw [Int.ofNat_eq_natCast, codePointAt?_ofNat]
    by_cases inside : steps < text.size
    · rw [if_pos (by omega), Int.toNat_natCast]
    · rw [if_neg (by omega), if_neg (by omega)]
      exact List.getElem?_eq_none (Nat.le_of_not_lt inside)
  | negSucc steps =>
    rw [codePointAt?_negSucc, if_neg (by omega)]
    by_cases inside : steps < text.size
    · have back : (text.size + Int.negSucc steps).toNat = text.codePoints.length - 1 - steps := by omega
      rw [if_pos (by omega), List.getElem?_reverse inside, back]
    · rw [if_neg (by omega)]
      apply List.getElem?_eq_none
      rw [List.length_reverse]
      exact Nat.le_of_not_lt inside

/-- An unpaired high surrogate, a pair and an unpaired low surrogate. -/
example : [0, 1, 2, 3, -1, -2, -3, -4].map (Text.mk [0xd83d, 0xd83d, 0xde00, 0xde00]).codePointAt? =
    [some (.ofUnit 0xd83d), some (.ofPair 0xd83d 0xde00), some (.ofUnit 0xde00), none,
     some (.ofUnit 0xde00), some (.ofPair 0xd83d 0xde00), some (.ofUnit 0xd83d), none] := by
  decide

end Text

end TagLang
