import PeerLink.Json.Shape
import PeerLink.Proofs.Json.Skipping

/-! Integers, as they are written in decimal digits. One that is in the range of a kind is read as itself, and
one that is not is refused, however many digits it has (`readScalar_integer`). Past a word it would be taken
for a float, and a float is never in a range. -/
namespace PeerLink.Json

open Text

/-! ### Digits -/

/-- The decimal digits of a number. -/
def decimal (n : Nat) : Bytes :=
  (Nat.toDigits 10 n).map byte

/-- The characters that are decimal digits. -/
def AreDigits (cs : List Char) : Prop :=
  ∀ c ∈ cs, ∃ d < 10, c = Nat.digitChar d

theorem areDigits_toDigits (n : Nat) : AreDigits (Nat.toDigits 10 n) := by
  have hAll : ∀ k < 0x3a, 0x30 ≤ k → ∃ d < 10, Char.ofNat k = Nat.digitChar d := by decide
  intro c hc
  have hDigit := Nat.isDigit_of_mem_toDigits (by decide) (by decide) hc
  simp only [Char.isDigit, Bool.and_eq_true, decide_eq_true_eq, ge_iff_le, UInt32.le_iff_toNat_le]
    at hDigit
  rw [← Char.ofNat_toNat c]
  exact hAll c.toNat (Nat.lt_succ_of_le hDigit.2) hDigit.1

theorem byte_digitChar : ∀ d < 10, isDigit (byte (Nat.digitChar d)) ∧
    digit (byte (Nat.digitChar d)) = d ∧
    String.utf8EncodeChar (Nat.digitChar d) = [byte (Nat.digitChar d)] := by
  decide

theorem digits_decimal (n : Nat) : ∀ b ∈ decimal n, isDigit b := by
  intro b hb
  obtain ⟨c, hc, rfl⟩ := List.mem_map.mp hb
  obtain ⟨d, hd, rfl⟩ := areDigits_toDigits n c hc
  exact (byte_digitChar d hd).1

theorem encode_digits {cs : List Char} (h : AreDigits cs) :
    cs.flatMap String.utf8EncodeChar = cs.map byte := by
  induction cs with
  | nil => rfl
  | cons c cs ih =>
      obtain ⟨⟨d, hd, rfl⟩, hLater⟩ := List.forall_mem_cons.mp h
      rw [List.flatMap_cons, (byte_digitChar d hd).2.2, ih hLater, List.map_cons,
        List.singleton_append]

theorem encode_repr (n : Nat) : Utf8.encode n.repr = decimal n := by
  rw [Utf8.encode, Nat.toList_repr, encode_digits (areDigits_toDigits n), decimal]

/-- Only zero has a zero in front. -/
theorem decimal_eq_cons {n : Nat} (h : n ≠ 0) : ∃ b s, decimal n = b :: s ∧ b ≠ byte '0' := by
  have hFirst : ∀ d < 10, d ≠ 0 → byte (Nat.digitChar d) ≠ byte '0' := by decide
  induction n using Nat.strong_induction_on with
  | _ n ih =>
      rw [decimal, Nat.toDigits_eq_if (by decide)]
      split
      · next hSmall => exact ⟨_, _, rfl, hFirst n hSmall h⟩
      · next hLarge =>
          obtain ⟨b, s, hDecimal, hNonzero⟩ := ih (n / 10) (by omega) (by omega)
          rw [List.map_append, ← decimal, hDecimal]
          exact ⟨b, _, rfl, hNonzero⟩

/-! ### Significands -/

theorem le_ofDigitChars (n : Nat) (cs : List Char) : n ≤ Nat.ofDigitChars 10 cs n := by
  rw [Nat.ofDigitChars_eq_ofDigitChars_zero]
  exact Nat.le_add_right_of_le (Nat.le_mul_of_pos_left n (Nat.pow_pos (by decide)))

/-- The digits are taken as long as their number fits a word. -/
theorem appendDigits_fits {cs : List Char} (h : AreDigits cs) {n : Nat}
    (hFits : Nat.ofDigitChars 10 cs n ≤ maxWord) :
    appendDigits n (cs.map byte) = (Nat.ofDigitChars 10 cs n, cs.length, 0) := by
  induction cs generalizing n with
  | nil => rfl
  | cons c cs ih =>
      obtain ⟨⟨d, hd, rfl⟩, hLater⟩ := List.forall_mem_cons.mp h
      rw [Nat.ofDigitChars_cons_digitChar_of_lt_ten hd, Nat.mul_comm] at hFits ⊢
      have hNext := Nat.le_trans (le_ofDigitChars _ cs) hFits
      rw [List.map_cons, appendDigits, (byte_digitChar d hd).2.1, if_pos hNext, ih hLater hFits]
      rfl

theorem appendDigits_large {cs : List Char} (h : AreDigits cs) {n : Nat} (hStart : n ≤ maxWord)
    (hLarge : maxWord < Nat.ofDigitChars 10 cs n) : (appendDigits n (cs.map byte)).2.2 ≠ 0 := by
  induction cs generalizing n with
  | nil => exact absurd hStart (Nat.not_le_of_lt hLarge)
  | cons c cs ih =>
      obtain ⟨⟨d, hd, rfl⟩, hLater⟩ := List.forall_mem_cons.mp h
      rw [Nat.ofDigitChars_cons_digitChar_of_lt_ten hd, Nat.mul_comm] at hLarge
      rw [List.map_cons, appendDigits, (byte_digitChar d hd).2.1]
      split
      · next hNext => exact ih hLater hNext hLarge
      · exact Nat.succ_ne_zero _

/-! ### Numbers -/

section Reading

variable {n significand extra : Nat} {rest : Bytes} (positive : Bool)

theorem readPoint_of_ends (hRest : Ends rest) :
    readPoint positive significand extra rest =
      if extra = 0 then .ok (wholeNumber positive significand, rest)
      else floatOfParts positive significand extra rest := by
  cases rest with
  | nil => rfl
  | cons b rest =>
      obtain ⟨-, hPoint, hScale⟩ := hRest b rfl
      rw [readPoint, if_neg hPoint, hScale, if_neg Bool.false_ne_true]

theorem readNumber_zero (hRest : Ends rest) :
    readNumber positive (decimal 0 ++ rest) = .ok (wholeNumber positive 0, rest) := by
  have hPoint : readPoint positive 0 0 rest = .ok (wholeNumber positive 0, rest) := by
    rw [readPoint_of_ends positive hRest, if_pos rfl]
  change readNumber positive (byte '0' :: rest) = _
  rw [readNumber.eq_def]
  dsimp only
  rw [if_pos rfl]
  cases rest with
  | nil => exact hPoint
  | cons b rest =>
      dsimp only
      rw [(hRest b rfl).1]
      exact hPoint

/-- A number other than zero, up to what follows its digits. -/
theorem readNumber_decimal (hNonzero : n ≠ 0) (hRest : Ends rest) :
    readNumber positive (decimal n ++ rest) =
      readPoint positive (appendDigits 0 (decimal n)).1 (appendDigits 0 (decimal n)).2.2 rest := by
  obtain ⟨b, s, hDecimal, hFirst⟩ := decimal_eq_cons hNonzero
  have hDigits := digits_decimal n
  rw [hDecimal] at hDigits ⊢
  obtain ⟨hDigit, hLater⟩ := List.forall_mem_cons.mp hDigits
  have hTake : (s ++ rest).takeWhile isDigit = s := by
    rw [List.takeWhile_append_of_pos hLater]
    cases rest with
    | nil => exact List.append_nil s
    | cons b rest => rw [List.takeWhile_cons_of_neg (by rw [(hRest b rfl).1]; exact Bool.false_ne_true),
        List.append_nil]
  rw [List.cons_append, readNumber.eq_def]
  dsimp only
  rw [if_neg hFirst, if_pos hDigit, hTake, dropWhile_digits hLater fun b hb => (hRest b hb).1]

theorem readNumber_fits (hFits : n ≤ maxWord) (hRest : Ends rest) :
    readNumber positive (decimal n ++ rest) = .ok (wholeNumber positive n, rest) := by
  by_cases hZero : n = 0
  · rw [hZero]
    exact readNumber_zero positive hRest
  · have hTaken : appendDigits 0 (decimal n) = (n, (Nat.toDigits 10 n).length, 0) := by
      have hFold : Nat.ofDigitChars 10 (Nat.toDigits 10 n) 0 = n := Nat.ofDigitChars_ten_toDigits
      have hDigits := appendDigits_fits (areDigits_toDigits n) (hFold.le.trans hFits)
      rwa [hFold] at hDigits
    rw [readNumber_decimal positive hZero hRest, readPoint_of_ends positive hRest, hTaken]
    rfl

/-- No integer comes of these digits. -/
def NotInteger (r : Except Fault (Number × Bytes)) : Prop :=
  ∀ number rest, r = .ok (number, rest) → ∃ written, number = .float written

theorem notInteger_floatOfParts (significand : Nat) (exponent : Int) (rest : Bytes) :
    NotInteger (floatOfParts positive significand exponent rest) := by
  intro number behind h
  rw [floatOfParts] at h
  split at h
  · cases h
    exact ⟨_, rfl⟩
  · cases h

theorem readNumber_large (hLarge : maxWord < n) (hRest : Ends rest) :
    NotInteger (readNumber positive (decimal n ++ rest)) := by
  have hExtra : (appendDigits 0 (decimal n)).2.2 ≠ 0 := by
    refine appendDigits_large (areDigits_toDigits n) (Nat.zero_le _) ?_
    rwa [Nat.ofDigitChars_ten_toDigits]
  rw [readNumber_decimal positive (Nat.ne_of_gt (Nat.zero_lt_of_lt hLarge)) hRest,
    readPoint_of_ends positive hRest, if_neg hExtra]
  exact notInteger_floatOfParts positive _ _ _

end Reading

/-! ### Ranges -/

/-- A kind of at most a word, signed or not. -/
structure IntKind.Fits (kind : IntKind) : Prop where
  low_nonpos : kind.low ≤ 0
  low_le : -0x8000000000000000 ≤ kind.low
  high_nonneg : 0 ≤ kind.high
  high_le : kind.high ≤ maxWord

/-- The text of an integer. -/
def integerText (n : Int) : Bytes :=
  Utf8.encode (toString n)

theorem integerText_natural (n : Nat) : integerText n = decimal n := by
  rw [integerText, Int.toString_eq_repr, Int.repr_eq_if, if_pos (Int.natCast_nonneg n),
    Int.toNat_natCast, encode_repr]

theorem integerText_negative {n : Nat} (h : n ≠ 0) :
    integerText (-n) = byte '-' :: decimal n := by
  have hMinus : Utf8.encode "-" = [byte '-'] := by decide
  rw [integerText, Int.toString_eq_repr, Int.repr_eq_if, if_neg (by omega), Int.neg_neg,
    Int.toNat_natCast, Utf8.encode_append, encode_repr, hMinus]
  rfl

section Ranges

variable {kind : IntKind} {n : Nat} {rest : Bytes}

theorem acceptInt_ok {number : Number} {v : Int} (h : kind.accept number = .ok v) :
    acceptInt kind (.ok (number, rest)) = .ok (.int v, rest) := by
  simp [acceptInt, h, bind, Except.bind, pure, Except.pure]

theorem acceptInt_error {number : Number} {cause : Cause} (h : kind.accept number = .error cause) :
    acceptInt kind (.ok (number, rest)) = .error (.here cause rest) := by
  simp [acceptInt, h, bind, Except.bind, throw, throwThe, MonadExceptOf.throw]

theorem acceptInt_of_notInteger {r : Except Fault (Number × Bytes)} (h : NotInteger r) :
    ∃ f, acceptInt kind r = .error f := by
  cases r with
  | error f => exact ⟨f, rfl⟩
  | ok r =>
      obtain ⟨number, rest⟩ := r
      obtain ⟨written, rfl⟩ := h number rest rfl
      exact ⟨_, rfl⟩

/-- A number is taken as an integer of the kind if it is in range, and refused otherwise. -/
def Decides (kind : IntKind) (n : Int) (rest : Bytes) (r : Except Fault (Scalar × Bytes)) : Prop :=
  (kind.low ≤ n ∧ n ≤ kind.high → r = .ok (.int n, rest)) ∧
    (¬ (kind.low ≤ n ∧ n ≤ kind.high) → ∃ f, r = .error f)

theorem decides_natural (hKind : kind.Fits) (hRest : Ends rest) :
    Decides kind n rest (acceptInt kind (readNumber true (decimal n ++ rest))) := by
  obtain ⟨hLow, -, -, hHigh⟩ := hKind
  by_cases hFits : n ≤ maxWord
  · rw [readNumber_fits true hFits hRest]
    constructor
    · rintro ⟨-, hIn⟩
      exact acceptInt_ok (if_pos hIn)
    · intro hOut
      have hAbove : ¬ (n : Int) ≤ kind.high := fun h => hOut ⟨by omega, h⟩
      exact ⟨_, acceptInt_error (if_neg hAbove)⟩
  · constructor
    · rintro ⟨-, hIn⟩
      omega
    · exact fun _ => acceptInt_of_notInteger (readNumber_large true (by omega) hRest)

theorem decides_negative (hKind : kind.Fits) (hNonzero : n ≠ 0) (hRest : Ends rest) :
    Decides kind (-n) rest (acceptInt kind (readNumber false (decimal n ++ rest))) := by
  obtain ⟨-, hLow, hHigh, -⟩ := hKind
  by_cases hFits : n ≤ 0x8000000000000000
  · have hWord : n ≤ maxWord := hFits.trans (by decide)
    have hNumber : wholeNumber false n = .negative n := by
      rw [wholeNumber, if_neg Bool.false_ne_true, if_pos ⟨Nat.pos_of_ne_zero hNonzero, hFits⟩]
    rw [readNumber_fits false hWord hRest, hNumber]
    constructor
    · rintro ⟨hIn, -⟩
      exact acceptInt_ok (if_pos hIn)
    · intro hOut
      have hBelow : ¬ kind.low ≤ -(n : Int) := fun h => hOut ⟨h, by omega⟩
      exact ⟨_, acceptInt_error (if_neg hBelow)⟩
  · constructor
    · rintro ⟨hIn, -⟩
      omega
    · intro _
      refine acceptInt_of_notInteger ?_
      by_cases hWord : n ≤ maxWord
      · have hNumber : wholeNumber false n = signed false n.toUInt64.toFloat := by
          rw [wholeNumber, if_neg Bool.false_ne_true, if_neg fun h => hFits h.2]
        rw [readNumber_fits false hWord hRest, hNumber]
        rintro number behind ⟨⟩
        exact ⟨_, rfl⟩
      · exact readNumber_large false (by omega) hRest

/-- The text of an integer is read as the integer if that is in range, and refused if not. -/
theorem readScalar_integer (hKind : kind.Fits) (n : Int) (hRest : Ends rest) :
    Decides kind n rest (readScalar (.int kind) (integerText n ++ rest)) := by
  obtain ⟨n, rfl | rfl⟩ := Int.eq_nat_or_neg n
  · have hDecides := decides_natural (n := n) hKind hRest
    obtain ⟨b, s, hText⟩ : ∃ b s, decimal n = b :: s := by
      cases hText : decimal n with
      | nil => exact absurd (List.map_eq_nil_iff.mp hText) Nat.toDigits_ne_nil
      | cons b s => exact ⟨b, s, rfl⟩
    have hDigit : isDigit b := digits_decimal n b (hText ▸ List.mem_cons_self)
    rw [integerText_natural]
    rw [hText, List.cons_append] at hDecides ⊢
    rw [readScalar, skipBlanks_of_not (solid_digit hDigit).1]
    dsimp only
    rwa [if_neg (ne_of_digit hDigit (by decide)), if_pos hDigit]
  · by_cases hZero : n = 0
    · subst hZero
      exact decides_natural (n := 0) hKind hRest
    · rw [integerText_negative hZero]
      exact decides_negative hKind hZero hRest

end Ranges

end PeerLink.Json
