import Mathlib.Data.List.DropRight
import PeerLink.Json.Skip
import PeerLink.Proofs.Json.Spelling

/-! The grammar of JSON values, and passing over them. `WellFormed` says which bytes are a value, with lists
and objects in it to any depth and with blanks wherever they may stand. Every such value is passed over, up to
the byte behind it (`skipValue_of_wellFormed`): what is open inside of the value is closed again at its end,
and the fuel is enough because no two rounds go by without a byte. -/
namespace PeerLink.Json

/-- Blanks and nothing else. -/
def Blank (s : Bytes) : Prop :=
  ∀ b ∈ s, isBlank b

def Digits (s : Bytes) : Prop :=
  s ≠ [] ∧ ∀ b ∈ s, isDigit b

/-- A whole number without sign, with no zero in front. -/
inductive Whole : Bytes → Prop where
  | zero : Whole [byte '0']
  | digits {d : UInt8} {s : Bytes} (first : isDigit d) (nonzero : d ≠ byte '0')
      (rest : ∀ b ∈ s, isDigit b) : Whole (d :: s)

inductive Fraction : Bytes → Prop where
  | none : Fraction []
  | digits {s : Bytes} (digits : Digits s) : Fraction (byte '.' :: s)

inductive Exponent : Bytes → Prop where
  | none : Exponent []
  | digits {letter : UInt8} {sign s : Bytes} (hLetter : letter = byte 'e' ∨ letter = byte 'E')
      (hSign : sign = [] ∨ sign = [byte '+'] ∨ sign = [byte '-']) (digits : Digits s) :
      Exponent (letter :: (sign ++ s))

/-- A value without parts. -/
inductive ScalarText : Bytes → Prop where
  | null : ScalarText (ascii "null")
  | true : ScalarText (ascii "true")
  | false : ScalarText (ascii "false")
  | number {sign whole fraction exponent : Bytes} (hSign : sign = [] ∨ sign = [byte '-'])
      (hWhole : Whole whole) (hFraction : Fraction fraction) (hExponent : Exponent exponent) :
      ScalarText (sign ++ (whole ++ (fraction ++ exponent)))
  | text {s : Bytes} (inside : Inside s) : ScalarText (byte '"' :: (s ++ [byte '"']))

def Bracket.opening : Bracket → UInt8
  | .list => byte '['
  | .object => byte '\x7b'

/-- The parts of the grammar: a value, what stands between two commas, and all between two brackets. -/
inductive Part where
  | value
  | entry (top : Bracket)
  | inside (top : Bracket)

/-- The bytes that are such a part. -/
inductive WellFormed : Part → Bytes → Prop where
  | scalar {s : Bytes} (scalar : ScalarText s) : WellFormed .value s
  | empty {top : Bracket} {w : Bytes} (blank : Blank w) :
      WellFormed .value (top.opening :: (w ++ [top.closing]))
  | nested {top : Bracket} {s : Bytes} (inside : WellFormed (.inside top) s) :
      WellFormed .value (top.opening :: (s ++ [top.closing]))
  | element {s : Bytes} (value : WellFormed .value s) : WellFormed (.entry .list) s
  | member {key u v s : Bytes} (hKey : Inside key) (before : Blank u) (behind : Blank v)
      (value : WellFormed .value s) :
      WellFormed (.entry .object) (byte '"' :: (key ++ byte '"' :: (u ++ byte ':' :: (v ++ s))))
  | last {top : Bracket} {u s v : Bytes} (before : Blank u) (entry : WellFormed (.entry top) s)
      (behind : Blank v) : WellFormed (.inside top) (u ++ (s ++ v))
  | more {top : Bracket} {u s v t : Bytes} (before : Blank u) (entry : WellFormed (.entry top) s)
      (behind : Blank v) (later : WellFormed (.inside top) t) :
      WellFormed (.inside top) (u ++ (s ++ (v ++ byte ',' :: t)))

/-! ### Blanks and words -/

theorem blank_nil : Blank [] :=
  fun _ hb => nomatch hb

theorem skipBlanks_append {w : Bytes} (h : Blank w) (s : Bytes) :
    skipBlanks (w ++ s) = skipBlanks s :=
  List.dropWhile_append_of_pos h

theorem skipBlanks_of_not {b : UInt8} (h : isBlank b = false) (s : Bytes) :
    skipBlanks (b :: s) = b :: s :=
  List.dropWhile_cons_of_neg (by rw [h]; exact Bool.false_ne_true)

theorem skipBlanks_to {w : Bytes} {b : UInt8} (h : Blank w) (hb : isBlank b = false) (s : Bytes) :
    skipBlanks (w ++ b :: s) = b :: s := by
  rw [skipBlanks_append h, skipBlanks_of_not hb]

theorem skipBlanks_skipBlanks (s : Bytes) : skipBlanks (skipBlanks s) = skipBlanks s :=
  List.dropWhile_idempotent isBlank s

theorem readWord_append (word rest : Bytes) : readWord word (word ++ rest) = .ok rest := by
  induction word with
  | nil => rfl
  | cons b word ih => rw [List.cons_append, readWord, if_pos rfl, ih]

/-! ### Numbers -/

/-- No number goes on here. -/
def Ends (s : Bytes) : Prop :=
  ∀ b ∈ s.head?, isDigit b = false ∧ b ≠ byte '.' ∧ isExponentLetter b = false

theorem ends_nil : Ends [] :=
  fun _ hb => nomatch hb

theorem ends_cons {b : UInt8} (h : isDigit b = false ∧ b ≠ byte '.' ∧ isExponentLetter b = false)
    (s : Bytes) : Ends (b :: s) := by
  rintro _ ⟨⟩
  exact h

theorem ends_of_blank {b : UInt8} (h : isBlank b = true) :
    isDigit b = false ∧ b ≠ byte '.' ∧ isExponentLetter b = false := by
  simp only [isBlank, Bool.or_eq_true, beq_iff_eq] at h
  obtain ((rfl | rfl) | rfl) | rfl := h <;> decide

/-- A value ends where blanks follow, up to the byte behind them. -/
theorem Ends.blanks {w s : Bytes} (hBlank : Blank w) (h : Ends s) : Ends (w ++ s) := by
  cases w with
  | nil => exact h
  | cons b w => exact ends_cons (ends_of_blank (hBlank b List.mem_cons_self)) _

theorem dropWhile_digits {s rest : Bytes} (h : ∀ b ∈ s, isDigit b)
    (hRest : ∀ b ∈ rest.head?, isDigit b = false) : (s ++ rest).dropWhile isDigit = rest := by
  rw [List.dropWhile_append_of_pos h]
  cases rest with
  | nil => rfl
  | cons b rest =>
      exact List.dropWhile_cons_of_neg (by rw [hRest b rfl]; exact Bool.false_ne_true)

section Number

variable {sign whole fraction exponent s rest : Bytes}

theorem skipExponent_digits (hSign : sign = [] ∨ sign = [byte '+'] ∨ sign = [byte '-'])
    (h : Digits s) (hRest : Ends rest) : skipExponent (sign ++ s ++ rest) = .ok rest := by
  obtain ⟨hSome, hDigits⟩ := h
  obtain ⟨d, s, rfl⟩ := List.exists_cons_of_ne_nil hSome
  obtain ⟨hFirst, hLater⟩ := List.forall_mem_cons.mp hDigits
  have hNoSign : (readSign (d :: (s ++ rest))).2 = d :: (s ++ rest) := by
    have hPlus : d ≠ byte '+' := fun hd => by rw [hd] at hFirst; exact absurd hFirst (by decide)
    have hMinus : d ≠ byte '-' := fun hd => by rw [hd] at hFirst; exact absurd hFirst (by decide)
    rw [readSign, if_neg hPlus, if_neg hMinus]
  have hBehind : (readSign (sign ++ (d :: s) ++ rest)).2 = d :: (s ++ rest) := by
    obtain rfl | rfl | rfl := hSign
    · exact hNoSign
    · rfl
    · rfl
  rw [skipExponent, hBehind]
  dsimp only
  rw [if_pos hFirst, dropWhile_digits hLater fun b hb => (hRest b hb).1]

theorem skipScale_exponent (h : Exponent exponent) (hRest : Ends rest) :
    skipScale (exponent ++ rest) = .ok rest := by
  cases h with
  | none =>
      cases rest with
      | nil => rfl
      | cons b rest =>
          rw [List.nil_append, skipScale, (hRest b rfl).2.2]
          rfl
  | digits hLetter hSign digits =>
      have hExponent := skipExponent_digits hSign digits hRest
      obtain rfl | rfl := hLetter <;> exact hExponent

theorem head_exponent (h : Exponent exponent) (hRest : Ends rest) :
    ∀ b ∈ (exponent ++ rest).head?, isDigit b = false ∧ b ≠ byte '.' := by
  cases h with
  | none => exact fun b hb => ⟨(hRest b hb).1, (hRest b hb).2.1⟩
  | digits hLetter hSign digits =>
      rintro _ ⟨⟩
      obtain rfl | rfl := hLetter <;> decide

theorem skipPoint_fraction (hFraction : Fraction fraction) (hExponent : Exponent exponent)
    (hRest : Ends rest) : skipPoint (fraction ++ (exponent ++ rest)) = .ok rest := by
  have hScale := skipScale_exponent hExponent hRest
  have hHead := head_exponent hExponent hRest
  cases hFraction with
  | none =>
      rw [List.nil_append]
      generalize exponent ++ rest = behind at hScale hHead
      cases behind with
      | nil => exact hScale
      | cons b behind =>
          rw [skipPoint.eq_def]
          dsimp only
          rw [if_neg (hHead b rfl).2]
          exact hScale
  | digits digits =>
      obtain ⟨hSome, hDigits⟩ := digits
      obtain ⟨d, s, rfl⟩ := List.exists_cons_of_ne_nil hSome
      obtain ⟨hFirst, hLater⟩ := List.forall_mem_cons.mp hDigits
      rw [List.cons_append, List.cons_append, skipPoint, if_pos rfl, if_pos hFirst, dropWhile_digits hLater fun b hb => (hHead b hb).1, hScale]

theorem skipNumber_whole (hWhole : Whole whole) (hFraction : Fraction fraction)
    (hExponent : Exponent exponent) (hRest : Ends rest) :
    skipNumber (whole ++ (fraction ++ (exponent ++ rest))) = .ok rest := by
  have hPoint := skipPoint_fraction hFraction hExponent hRest
  have hHead : ∀ b ∈ (fraction ++ (exponent ++ rest)).head?, isDigit b = false := by
    cases hFraction with
    | none => exact fun b hb => (head_exponent hExponent hRest b hb).1
    | digits digits =>
        rintro _ ⟨⟩
        decide
  cases hWhole with
  | zero =>
      rw [List.singleton_append, skipNumber.eq_def]
      dsimp only
      rw [if_pos rfl]
      generalize fraction ++ (exponent ++ rest) = behind at hPoint hHead
      cases behind with
      | nil => exact hPoint
      | cons b behind =>
          dsimp only
          rw [hHead b rfl]
          exact hPoint
  | digits first nonzero later =>
      rw [List.cons_append, skipNumber.eq_def]
      dsimp only
      rw [if_neg nonzero, if_pos first, dropWhile_digits later hHead, hPoint]

end Number

/-! ### Scalars -/

/-- A byte with which no list or object and no blank begins, nor an end of one. -/
def Solid (b : UInt8) : Prop :=
  isBlank b = false ∧ b ≠ byte ']' ∧ b ≠ byte '\x7d'

instance (b : UInt8) : Decidable (Solid b) :=
  inferInstanceAs (Decidable (_ ∧ _ ∧ _))

theorem ne_of_digit {b : UInt8} (h : isDigit b) {c : UInt8} (hc : isDigit c = false) : b ≠ c := by
  rintro rfl
  rw [h] at hc
  cases hc

theorem solid_digit {b : UInt8} (h : isDigit b) : Solid b := by
  refine ⟨?_, ne_of_digit h (by decide), ne_of_digit h (by decide)⟩
  rw [← Bool.not_eq_true]
  intro hBlank
  have hEnds := (ends_of_blank hBlank).1
  rw [h] at hEnds
  cases hEnds

theorem skipScalar?_digit {b : UInt8} (h : isDigit b) (s : Bytes) :
    skipScalar? (b :: s) = some (skipNumber (b :: s)) := by
  rw [skipScalar?, if_neg (ne_of_digit h (by decide)), if_neg (ne_of_digit h (by decide)),
    if_neg (ne_of_digit h (by decide)), if_neg (ne_of_digit h (by decide)), if_pos h]

/-- A scalar is passed over, and it does not look like anything else. -/
theorem skipScalar?_of_scalarText {s rest : Bytes} (h : ScalarText s) (hRest : Ends rest) :
    ∃ b s', s = b :: s' ∧ Solid b ∧ b ≠ byte '[' ∧ b ≠ byte '\x7b' ∧
      skipScalar? (s ++ rest) = some (.ok rest) := by
  cases h with
  | null =>
      refine ⟨byte 'n', ascii "ull", rfl, by decide, by decide, by decide, ?_⟩
      exact congrArg some (readWord_append (ascii "ull") rest)
  | true =>
      refine ⟨byte 't', ascii "rue", rfl, by decide, by decide, by decide, ?_⟩
      exact congrArg some (readWord_append (ascii "rue") rest)
  | false =>
      refine ⟨byte 'f', ascii "alse", rfl, by decide, by decide, by decide, ?_⟩
      exact congrArg some (readWord_append (ascii "alse") rest)
  | @text s inside =>
      refine ⟨byte '"', s ++ [byte '"'], rfl, by decide, by decide, by decide, ?_⟩
      have hText := skipText_of_inside inside rest
      rw [List.cons_append, List.append_assoc, List.singleton_append]
      exact congrArg some hText
  | @number sign whole fraction exponent hSign hWhole hFraction hExponent =>
      have hNumber := skipNumber_whole hWhole hFraction hExponent hRest
      obtain rfl | rfl := hSign
      · obtain ⟨d, s, hFirst, hDigit⟩ : ∃ d s, whole = d :: s ∧ isDigit d := by
          cases hWhole with
          | zero => exact ⟨_, _, rfl, by decide⟩
          | digits first => exact ⟨_, _, rfl, first⟩
        subst hFirst
        refine ⟨d, s ++ (fraction ++ exponent), rfl, solid_digit hDigit, ne_of_digit hDigit (by decide),
          ne_of_digit hDigit (by decide), ?_⟩
        rw [List.nil_append, List.append_assoc, List.append_assoc, List.cons_append,
          skipScalar?_digit hDigit]
        exact congrArg some hNumber
      · refine ⟨byte '-', whole ++ (fraction ++ exponent), rfl, by decide, by decide, by decide, ?_⟩
        rw [List.singleton_append, List.cons_append, List.append_assoc, List.append_assoc]
        exact congrArg some hNumber

/-- No part but the inside of brackets begins with a blank or with the end of a list or an object. -/
theorem WellFormed.solid {part : Part} {s : Bytes} (h : WellFormed part s) :
    (∀ top, part ≠ .inside top) → ∃ b s', s = b :: s' ∧ Solid b := by
  induction h with
  | scalar scalar =>
      intro _
      obtain ⟨b, s', hs, hSolid, -⟩ := skipScalar?_of_scalarText scalar ends_nil
      exact ⟨b, s', hs, hSolid⟩
  | @empty top _ _ => exact fun _ => ⟨_, _, rfl, by cases top <;> decide⟩
  | @nested top _ _ _ => exact fun _ => ⟨_, _, rfl, by cases top <;> decide⟩
  | element _ ih => exact fun _ => ih nofun
  | member => exact fun _ => ⟨_, _, rfl, by decide⟩
  | last => exact fun hInside => absurd rfl (hInside _)
  | more => exact fun hInside => absurd rfl (hInside _)

theorem WellFormed.inside_solid {top : Bracket} {s : Bytes} (h : WellFormed (.inside top) s) :
    ∃ w b s', s = w ++ b :: s' ∧ Blank w ∧ Solid b := by
  cases h with
  | @last _ w _ v before entry _ =>
      obtain ⟨b, s', rfl, hSolid⟩ := entry.solid nofun
      exact ⟨w, b, s' ++ v, rfl, before, hSolid⟩
  | @more _ w _ v t before entry _ _ =>
      obtain ⟨b, s', rfl, hSolid⟩ := entry.solid nofun
      exact ⟨w, b, s' ++ (v ++ byte ',' :: t), rfl, before, hSolid⟩

/-! ### Rounds -/

/-- Where the reader is between two rounds. -/
structure Spot where
  place : Place
  brackets : List Bracket
  rest : Bytes

/-- After `n` rounds the reader is at `next`. -/
def After (n : Nat) (spot next : Spot) : Prop :=
  ∀ fuel, skipFrom (fuel + n) spot.place spot.brackets spot.rest =
    skipFrom fuel next.place next.brackets next.rest

theorem After.trans {n m : Nat} {a b c : Spot} (first : After n a b) (second : After m b c) :
    After (n + m) a c := by
  intro fuel
  rw [Nat.add_comm n m, ← Nat.add_assoc, first, second]

section Rounds

variable {top : Bracket} {outer brackets : List Bracket} {u w s rest : Bytes} {b : UInt8} {n : Nat}
  {next : Spot}

theorem after_scalar (h : ScalarText s) (hRest : Ends rest) :
    After 1 ⟨.value, brackets, s ++ rest⟩ ⟨.behindItem, brackets, rest⟩ := by
  obtain ⟨b, s, rfl, hSolid, hList, hObject, hScalar⟩ := skipScalar?_of_scalarText h hRest
  rw [List.cons_append] at hScalar
  intro fuel
  rw [skipFrom, List.cons_append, skipBlanks_of_not hSolid.1]
  dsimp only
  rw [if_neg hList, if_neg hObject, hScalar]

theorem after_opening :
    After 1 ⟨.value, brackets, top.opening :: rest⟩ ⟨.opened, top :: brackets, rest⟩ := by
  intro fuel
  cases top <;> rfl

theorem closing_not_blank (top : Bracket) : isBlank top.closing = false := by
  cases top <;> rfl

theorem after_empty (hBlank : Blank w) :
    After 1 ⟨.opened, top :: outer, w ++ top.closing :: rest⟩ ⟨.behindItem, outer, rest⟩ := by
  intro fuel
  rw [skipFrom, skipBlanks_to hBlank (closing_not_blank top)]
  exact if_pos rfl

/-- An item is looked for behind blanks. -/
theorem skipFrom_blanks (top : Bracket) (hBlank : Blank w) (fuel : Nat) :
    skipFrom (fuel + 1) top.item brackets (w ++ s) = skipFrom (fuel + 1) top.item brackets s := by
  cases top with
  | list => rw [Bracket.item, skipFrom, skipFrom, skipBlanks_append hBlank]
  | object => rw [Bracket.item, skipFrom, skipFrom, skipKey, skipKey, skipBlanks_append hBlank]

theorem After.blanks (top : Bracket) (hBlank : Blank w) (hSome : 0 < n)
    (h : After n ⟨top.item, brackets, s⟩ next) : After n ⟨top.item, brackets, w ++ s⟩ next := by
  intro fuel
  obtain ⟨n, rfl⟩ := Nat.exists_eq_add_one_of_ne_zero hSome.ne'
  rw [← h fuel]
  exact skipFrom_blanks top hBlank _

/-- The first item in a bracket takes a round of its own. -/
theorem After.opened (hBlank : Blank w) (hSolid : Solid b) (hSome : 0 < n)
    (h : After n ⟨top.item, top :: outer, w ++ b :: s⟩ next) :
    After (1 + n) ⟨.opened, top :: outer, w ++ b :: s⟩ next := by
  have hOpen : b ≠ top.closing := by
    cases top with
    | list => exact hSolid.2.1
    | object => exact hSolid.2.2
  refine After.trans (b := ⟨top.item, top :: outer, b :: s⟩) ?_ ?_
  · intro fuel
    rw [skipFrom, skipBlanks_to hBlank hSolid.1]
    exact if_neg hOpen
  · intro fuel
    obtain ⟨n, rfl⟩ := Nat.exists_eq_add_one_of_ne_zero hSome.ne'
    rw [← h fuel]
    exact (skipFrom_blanks top hBlank _).symm

theorem after_key (hKey : Inside s) (hBlank : Blank u) :
    After 1 ⟨.member, brackets, byte '"' :: (s ++ byte '"' :: (u ++ byte ':' :: rest))⟩
      ⟨.value, brackets, rest⟩ := by
  have hSkip : skipKey (byte '"' :: (s ++ byte '"' :: (u ++ byte ':' :: rest))) = .ok rest := by
    have hQuote (s : Bytes) : skipBlanks (byte '"' :: s) = byte '"' :: s := rfl
    simp [skipKey, hQuote, skipText_of_inside hKey,
      skipBlanks_to hBlank (show isBlank (byte ':') = false by decide), bind, Except.bind, pure,
      Except.pure]
  intro fuel
  rw [skipFrom, hSkip]

theorem after_comma (hBlank : Blank w) :
    After 1 ⟨.behindItem, top :: outer, w ++ byte ',' :: rest⟩ ⟨top.item, top :: outer, rest⟩ := by
  intro fuel
  rw [skipFrom, skipBlanks_to hBlank (by decide)]
  exact if_pos rfl

theorem after_closing (hBlank : Blank w) :
    After 1 ⟨.behindItem, top :: outer, w ++ top.closing :: rest⟩ ⟨.behindItem, outer, rest⟩ := by
  have hComma : top.closing ≠ byte ',' := by cases top <;> decide
  intro fuel
  rw [skipFrom, skipBlanks_to hBlank (closing_not_blank top)]
  dsimp only
  rw [if_neg hComma, if_pos rfl]

end Rounds

/-! ### Values -/

/-- The reader passes over such a part, in a number of rounds that its length bounds. -/
def Part.Passed : Part → Bytes → Prop
  | .value, s => ∀ brackets rest, Ends rest → ∃ n, 0 < n ∧ n ≤ 2 * s.length ∧
      After n ⟨.value, brackets, s ++ rest⟩ ⟨.behindItem, brackets, rest⟩
  | .entry top, s => ∀ outer rest, Ends rest → ∃ n, 0 < n ∧ n ≤ 2 * s.length ∧
      After n ⟨top.item, top :: outer, s ++ rest⟩ ⟨.behindItem, top :: outer, rest⟩
  | .inside top, s => ∀ outer rest, ∃ n, 0 < n ∧ n ≤ 2 * s.length + 1 ∧
      After n ⟨top.item, top :: outer, s ++ top.closing :: rest⟩ ⟨.behindItem, outer, rest⟩

theorem ends_closing (top : Bracket) (rest : Bytes) : Ends (top.closing :: rest) :=
  ends_cons (by cases top <;> decide) rest

theorem ends_comma (rest : Bytes) : Ends (byte ',' :: rest) :=
  ends_cons (by decide) rest

theorem WellFormed.passed {part : Part} {s : Bytes} (h : WellFormed part s) : part.Passed s := by
  induction h with
  | scalar scalar =>
      intro brackets rest hRest
      obtain ⟨b, s', rfl, -⟩ := skipScalar?_of_scalarText scalar hRest
      exact ⟨1, Nat.one_pos, by simp only [List.length_cons]; omega, after_scalar scalar hRest⟩
  | @empty top w blank =>
      intro brackets rest _
      refine ⟨1 + 1, by omega, by simp only [List.length_cons]; omega, ?_⟩
      rw [List.cons_append, List.append_assoc, List.singleton_append]
      exact after_opening.trans (after_empty blank)
  | @nested top s inside ih =>
      intro brackets rest _
      obtain ⟨n, hSome, hCount, hInside⟩ := ih brackets rest
      obtain ⟨w, b, s', rfl, hBlank, hSolid⟩ := inside.inside_solid
      rw [List.append_assoc, List.cons_append] at hInside
      refine ⟨1 + (1 + n), by omega, ?_, ?_⟩
      · simp only [List.length_cons, List.length_append] at hCount ⊢
        omega
      · rw [List.cons_append, List.append_assoc, List.append_assoc, List.cons_append]
        exact after_opening.trans (hInside.opened hBlank hSolid hSome)
  | element _ ih => exact fun outer rest hRest => ih (.list :: outer) rest hRest
  | @member key u v s hKey before behind _ ih =>
      intro outer rest hRest
      obtain ⟨n, hSome, hCount, hValue⟩ := ih (.object :: outer) rest hRest
      refine ⟨1 + n, by omega, ?_, ?_⟩
      · simp only [List.length_cons, List.length_append]
        omega
      · simp only [List.cons_append, List.append_assoc]
        exact (after_key hKey before).trans (hValue.blanks .list behind hSome)
  | @last top u s v before _ behind ih =>
      intro outer rest
      obtain ⟨n, hSome, hCount, hEntry⟩ := ih outer (v ++ top.closing :: rest)
        ((ends_closing top rest).blanks behind)
      refine ⟨n + 1, by omega, ?_, ?_⟩
      · simp only [List.length_append]
        omega
      · simp only [List.append_assoc]
        exact (hEntry.blanks top before hSome).trans (after_closing behind)
  | @more top u s v t before _ behind _ ih ihLater =>
      intro outer rest
      obtain ⟨m, -, hLaterCount, hLater⟩ := ihLater outer rest
      obtain ⟨n, hSome, hCount, hEntry⟩ := ih outer (v ++ byte ',' :: (t ++ top.closing :: rest))
        ((ends_comma _).blanks behind)
      refine ⟨n + (1 + m), by omega, ?_, ?_⟩
      · simp only [List.length_append, List.length_cons]
        omega
      · simp only [List.append_assoc, List.cons_append]
        exact (hEntry.blanks top before hSome).trans ((after_comma behind).trans hLater)

/-- A value is passed over, and nothing else is. -/
theorem skipValue_of_wellFormed {w s rest : Bytes} (hBlank : Blank w) (h : WellFormed .value s)
    (hRest : Ends rest) : skipValue (w ++ (s ++ rest)) = .ok rest := by
  obtain ⟨n, -, hCount, hPassed⟩ := h.passed [] rest hRest
  obtain ⟨fuel, hFuel⟩ : ∃ fuel, 2 * (w ++ (s ++ rest)).length + 2 = fuel + 1 + n := by
    refine ⟨2 * (w ++ (s ++ rest)).length + 1 - n, ?_⟩
    simp only [List.length_append]
    omega
  calc skipValue (w ++ (s ++ rest))
      = skipFrom (fuel + 1 + n) .value [] (w ++ (s ++ rest)) := by rw [skipValue, hFuel]
    _ = skipFrom (fuel + 1 + n) .value [] (s ++ rest) := by
        rw [Nat.add_right_comm]
        exact skipFrom_blanks .list hBlank _
    _ = skipFrom (fuel + 1) .behindItem [] rest := hPassed _
    _ = .ok rest := rfl

end PeerLink.Json
