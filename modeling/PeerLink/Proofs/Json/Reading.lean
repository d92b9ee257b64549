import Mathlib.Data.List.TakeWhile
import PeerLink.Json.Shape
import PeerLink.Proofs.Json.Literal

/-! How much of a text is read. Whatever is read, what is left is never longer than the text was, and a
string that was read takes no more bytes than its literal. So the
texts of a record fit into what it was read from (`size_of_read`). -/
namespace PeerLink

open Text

namespace Json

theorem ok_of_bind {ε α β : Type} {x : Except ε α} {f : α → Except ε β} {b : β}
    (h : x >>= f = .ok b) : ∃ a, x = .ok a ∧ f a = .ok b := by
  cases x with
  | error e => cases h
  | ok a => exact ⟨a, rfl, h⟩

/-! ### String literals -/

theorem readHex4_length {s rest : Bytes} {n : Nat} (h : readHex4 s = .ok (n, rest)) :
    rest.length + 4 = s.length := by
  unfold readHex4 at h
  split at h
  · split at h
    · cases h
      rfl
    · cases h
  · cases h

theorem readCodePoint_length {s rest : Bytes} {c : Char} (h : readCodePoint s = .ok (c, rest)) :
    rest.length + 4 ≤ s.length := by
  unfold readCodePoint at h
  obtain ⟨⟨n, behind⟩, hHex, h⟩ := ok_of_bind h
  have hFirst := readHex4_length hHex
  dsimp only at h
  split at h
  · cases h
  · split at h
    · obtain ⟨s₁, hBackslash, h⟩ := ok_of_bind h
      obtain ⟨s₂, hLetter, h⟩ := ok_of_bind h
      obtain ⟨⟨low, s₃⟩, hLow, h⟩ := ok_of_bind h
      have h₁ := readEscapeByte_shorter hBackslash
      have h₂ := readEscapeByte_shorter hLetter
      have h₃ := readHex4_length hLow
      dsimp only at h
      split at h
      · obtain ⟨-, rfl⟩ := Prod.mk.inj (Except.ok.inj h)
        omega
      · cases h
    · obtain ⟨-, rfl⟩ := Prod.mk.inj (Except.ok.inj h)
      exact hFirst.le

/-- An escape is at least as long as what it stands for. -/
theorem readEscape_length {s rest out : Bytes} (h : readEscape s = .ok (out, rest)) :
    out.length + rest.length ≤ s.length := by
  unfold readEscape at h
  split at h
  · cases h
  · split at h
    · cases h
      simp only [List.length_cons, List.length_nil]
      omega
    · split at h
      · obtain ⟨⟨c, behind⟩, hCode, h⟩ := ok_of_bind h
        cases h
        have hBehind := readCodePoint_length hCode
        have hBytes : (String.utf8EncodeChar c).length ≤ 4 := by
          rw [String.length_utf8EncodeChar]
          exact Char.utf8Size_le_four c
        rw [List.length_cons]
        omega
      · cases h

theorem readTextBytes_length {before s bytes rest : Bytes}
    (h : readTextBytes before s = .ok (bytes, rest)) :
    bytes.length + rest.length ≤ before.length + s.length := by
  fun_induction readTextBytes before s with
  | case1 before => cases h
  | case2 before s =>
      cases h
      rw [List.length_reverse, List.length_cons]
      omega
  | case3 before s out behind hEscape hQuote ih =>
      have hLength := readEscape_length hEscape
      have hRest := ih h
      rw [List.length_append, List.length_reverse] at hRest
      rw [List.length_cons]
      omega
  | case4 => cases h
  | case5 before b s hQuote hBackslash hControl => cases h
  | case6 before b s hQuote hBackslash hControl ih =>
      have hRest := ih h
      rw [List.length_cons] at hRest ⊢
      omega

theorem readText_length {s rest : Bytes} {text : String} (h : readText s = .ok (text, rest)) :
    (Utf8.encode text).length + rest.length ≤ s.length := by
  obtain ⟨⟨bytes, behind⟩, hBytes, h⟩ := ok_of_bind h
  have hLength := readTextBytes_length hBytes
  dsimp only at h
  split at h
  · next hText =>
      cases h
      rw [Utf8.encode_of_decode hText]
      simpa using hLength
  · cases h

theorem skipText_shorter {s rest : Bytes} (h : skipText s = .ok rest) : rest.length ≤ s.length := by
  fun_induction skipText s with
  | case1 => cases h
  | case2 s =>
      cases h
      exact Nat.le_succ _
  | case3 s behind hEscape hQuote ih =>
      exact (ih h).trans (Nat.le_succ_of_le (skipEscape_shorter hEscape).le)
  | case4 => cases h
  | case5 b s hQuote hBackslash hControl => cases h
  | case6 b s hQuote hBackslash hControl ih => exact (ih h).trans (Nat.le_succ _)

/-! ### Blanks, words and numbers -/

theorem skipBlanks_cons {s rest : Bytes} {b : UInt8} (h : skipBlanks s = b :: rest) :
    rest.length < s.length := by
  have hLength := List.length_dropWhile_le isBlank s
  rw [← skipBlanks, h] at hLength
  exact hLength

theorem readWord_shorter {word s rest : Bytes} (h : readWord word s = .ok rest) :
    rest.length ≤ s.length := by
  fun_induction readWord word s with
  | case1 s =>
      cases h
      exact Nat.le_refl _
  | case2 => cases h
  | case3 word b s ih => exact (ih h).trans (Nat.le_succ _)
  | case4 => cases h

theorem readSign_shorter (s : Bytes) : (readSign s).2.length ≤ s.length := by
  unfold readSign
  split
  · split
    · exact Nat.le_succ _
    · split
      · exact Nat.le_succ _
      · exact Nat.le_refl _
  · exact Nat.le_refl _

theorem skipExponent_shorter {s rest : Bytes} (h : skipExponent s = .ok rest) :
    rest.length ≤ s.length := by
  have hSign := readSign_shorter s
  unfold skipExponent at h
  split at h
  · cases h
  · next b behind hBehind =>
      rw [hBehind, List.length_cons] at hSign
      split at h
      · cases h
        have hDigits := List.length_dropWhile_le isDigit behind
        omega
      · cases h

theorem skipScale_shorter {s rest : Bytes} (h : skipScale s = .ok rest) : rest.length ≤ s.length := by
  unfold skipScale at h
  split at h
  · cases h
    exact Nat.le_refl _
  · split at h
    · exact (skipExponent_shorter h).trans (Nat.le_succ _)
    · cases h
      exact Nat.le_refl _

theorem skipPoint_shorter {s rest : Bytes} (h : skipPoint s = .ok rest) : rest.length ≤ s.length := by
  unfold skipPoint at h
  split at h
  · cases h
    exact Nat.le_refl _
  · split at h
    · split at h
      · next d behind =>
          split at h
          · have hDigits := List.length_dropWhile_le isDigit behind
            have hScale := skipScale_shorter h
            simp only [List.length_cons]
            omega
          · cases h
      · cases h
    · split at h
      · exact (skipExponent_shorter h).trans (Nat.le_succ _)
      · cases h
        exact Nat.le_refl _

theorem skipNumber_shorter {s rest : Bytes} (h : skipNumber s = .ok rest) :
    rest.length ≤ s.length := by
  unfold skipNumber at h
  split at h
  · cases h
  · next b behind =>
      split at h
      · split at h
        · split at h
          · cases h
          · exact (skipPoint_shorter h).trans (Nat.le_succ _)
        · cases h
          exact Nat.zero_le _
      · split at h
        · have hDigits := List.length_dropWhile_le isDigit behind
          exact (skipPoint_shorter h).trans (hDigits.trans (Nat.le_succ _))
        · cases h

/-! ### Values that are passed over -/

theorem skipScalar?_shorter {s rest : Bytes} (h : skipScalar? s = some (.ok rest)) :
    rest.length ≤ s.length := by
  unfold skipScalar? at h
  split at h
  · cases h
  · split_ifs at h
    · exact (readWord_shorter (Option.some.inj h)).trans (Nat.le_succ _)
    · exact (readWord_shorter (Option.some.inj h)).trans (Nat.le_succ _)
    · exact (readWord_shorter (Option.some.inj h)).trans (Nat.le_succ _)
    · exact (skipNumber_shorter (Option.some.inj h)).trans (Nat.le_succ _)
    · exact skipNumber_shorter (Option.some.inj h)
    · exact (skipText_shorter (Option.some.inj h)).trans (Nat.le_succ _)

theorem skipKey_shorter {s rest : Bytes} (h : skipKey s = .ok rest) : rest.length ≤ s.length := by
  unfold skipKey at h
  split at h
  · cases h
  · next b behind hBlanks =>
      have hBehind := skipBlanks_cons hBlanks
      dsimp only at h
      split at h
      · cases h
      · obtain ⟨value, hText, h⟩ := ok_of_bind h
        have hValue := skipText_shorter hText
        split at h
        · cases h
        · next colon later hLater =>
            have hRest := skipBlanks_cons hLater
            split at h
            · cases h
              omega
            · cases h

theorem skipFrom_shorter {fuel : Nat} {place : Place} {brackets : List Bracket} {s rest : Bytes}
    (h : skipFrom fuel place brackets s = .ok rest) : rest.length ≤ s.length := by
  induction fuel generalizing place brackets s with
  | zero => cases h
  | succ fuel ih =>
      unfold skipFrom at h
      cases place with
      | value =>
          dsimp only at h
          split at h
          · cases h
          · next b behind hBlanks =>
              have hBehind := skipBlanks_cons hBlanks
              split_ifs at h
              · exact (ih h).trans hBehind.le
              · exact (ih h).trans hBehind.le
              · split at h
                · cases h
                · cases h
                · next later hScalar =>
                    have hLater := skipScalar?_shorter hScalar
                    rw [List.length_cons] at hLater
                    exact (ih h).trans (hLater.trans hBehind)
      | member =>
          dsimp only at h
          split at h
          · cases h
          · next later hKey => exact (ih h).trans (skipKey_shorter hKey)
      | opened =>
          dsimp only at h
          split at h
          · cases h
            exact Nat.le_refl _
          · split at h
            · cases h
            · next b behind hBlanks =>
                have hBehind := skipBlanks_cons hBlanks
                split_ifs at h
                · exact (ih h).trans hBehind.le
                · exact (ih h).trans hBehind
      | behindItem =>
          dsimp only at h
          split at h
          · cases h
            exact Nat.le_refl _
          · split at h
            · cases h
            · next b behind hBlanks =>
                have hBehind := skipBlanks_cons hBlanks
                split_ifs at h
                · exact (ih h).trans hBehind.le
                · exact (ih h).trans hBehind.le

/-! ### Records -/

/-- How many bytes the text has that is in a scalar. -/
def Scalar.size : Scalar → Nat
  | .text value => (Utf8.encode value).length
  | _ => 0

theorem nextElement_shorter {first more : Bool} {s rest : Bytes}
    (h : nextElement first s = .ok (more, rest)) : rest.length ≤ s.length := by
  unfold nextElement at h
  split at h
  · cases h
  · next b behind hBlanks =>
      have hBehind := skipBlanks_cons hBlanks
      split_ifs at h
      · cases h
        exact hBehind
      · cases h
        exact hBehind
      · split at h
        · cases h
        · next c later hLater =>
            have hRest := skipBlanks_cons hLater
            split_ifs at h
            cases h
            rw [List.length_cons]
            omega

theorem nextMember_shorter {first more : Bool} {s rest : Bytes}
    (h : nextMember first s = .ok (more, rest)) : rest.length ≤ s.length := by
  unfold nextMember at h
  split at h
  · cases h
  · next b behind hBlanks =>
      have hBehind := skipBlanks_cons hBlanks
      split_ifs at h
      · cases h
        exact hBehind
      · cases h
        exact hBehind.le
      · split at h
        · cases h
        · next c later hLater =>
            have hRest := skipBlanks_cons hLater
            split_ifs at h
            cases h
            exact (hRest.trans hBehind).le

theorem readColon_shorter {s rest : Bytes} (h : readColon s = .ok rest) : rest.length ≤ s.length := by
  unfold readColon at h
  split at h
  · cases h
  · next b behind hBlanks =>
      split_ifs at h
      cases h
      exact (skipBlanks_cons hBlanks).le

/-- A field that has to be written, as a text. -/
def Field.IsText (f : Field) : Prop :=
  f.kind = ⟨.text, false⟩ ∧ f.default? = none

theorem readItem_length {f : Field} {s rest : Bytes} {x : Scalar} (hText : f.IsText)
    (h : readItem f.kind s = .ok (x, rest)) : x.size + rest.length ≤ s.length := by
  simp only [hText.1, readItem] at h
  unfold readScalar at h
  split at h
  · cases h
  · next b behind hBlanks =>
      -- Blanks are passed over twice.
      have hBehind := (skipBlanks_cons hBlanks).trans_le (List.length_dropWhile_le isBlank s)
      dsimp only at h
      split at h
      · obtain ⟨⟨value, later⟩, hValue, h⟩ := ok_of_bind h
        cases h
        exact (readText_length hValue).trans hBehind.le
      · cases h

theorem size_of_completeFields {known : Known} {fields : List Field} {xs : List Scalar} {n : Nat}
    (hTexts : ∀ f ∈ fields, f.IsText) (hKnown : ∀ y ∈ known, y.2.size ≤ n)
    (h : completeFields known fields = .ok xs) : ∀ x ∈ xs, x.size ≤ n := by
  induction fields generalizing xs with
  | nil =>
      cases h
      nofun
  | cons f fields ih =>
      obtain ⟨hText, hTexts⟩ := List.forall_mem_cons.mp hTexts
      unfold completeFields at h
      dsimp only at h
      split at h
      · next y hFound =>
          obtain ⟨z, hz, h⟩ := ok_of_bind h
          obtain ⟨rest, hRest, h⟩ := ok_of_bind h
          cases hz
          cases h
          obtain ⟨before, after, rfl, _⟩ := List.lookup_eq_some_iff.mp hFound
          exact List.forall_mem_cons.mpr ⟨hKnown (f.name, y) (by simp), ih hTexts hRest⟩
      · next hDefault =>
          rw [hText.2] at hDefault
          cases hDefault
      · cases h

theorem size_of_readMembers {r : RecordKind} {fuel : Nat} {first : Bool} {known : Known}
    {s rest : Bytes} {xs : List Scalar} {n : Nat} (hTexts : ∀ f ∈ r.fields, f.IsText)
    (hKnown : ∀ y ∈ known, y.2.size ≤ n) (hLength : s.length ≤ n)
    (h : readMembers r fuel first known s = .ok (.ok xs, rest)) : ∀ x ∈ xs, x.size ≤ n := by
  induction fuel generalizing first known s with
  | zero => cases h
  | succ fuel ih =>
      unfold readMembers at h
      obtain ⟨⟨more, s₁⟩, hNext, h⟩ := ok_of_bind h
      have h₁ := nextMember_shorter hNext
      dsimp only at h
      split at h
      · exact size_of_completeFields hTexts hKnown (Prod.mk.inj (Except.ok.inj h)).1
      · obtain ⟨⟨key, s₂⟩, hKey, h⟩ := ok_of_bind h
        have h₂ := readText_length hKey
        dsimp only at h
        split at h
        · obtain ⟨s₃, hColon, h⟩ := ok_of_bind h
          obtain ⟨s₄, hValue, h⟩ := ok_of_bind h
          have h₃ := readColon_shorter hColon
          have h₄ := skipFrom_shorter hValue
          exact ih hKnown (by omega) h
        · next f hField =>
            split at h
            · cases h
            · obtain ⟨s₃, hColon, h⟩ := ok_of_bind h
              obtain ⟨⟨x, s₄⟩, hItem, h⟩ := ok_of_bind h
              have h₃ := readColon_shorter hColon
              have h₄ := readItem_length (hTexts f (List.mem_of_find?_eq_some hField)) hItem
              have hItem : x.size ≤ n ∧ s₄.length ≤ n := by omega
              exact ih (List.forall_mem_cons.mpr ⟨hItem.1, hKnown⟩) hItem.2 h

theorem size_of_readPositional {r : RecordKind} {fields : List Field} {first : Bool}
    {before : List Scalar} {s rest : Bytes} {xs : List Scalar} {n : Nat}
    (hTexts : ∀ f ∈ fields, f.IsText) (hBefore : ∀ x ∈ before, x.size ≤ n) (hLength : s.length ≤ n)
    (h : readPositional r fields first before s = .ok (.ok xs, rest)) : ∀ x ∈ xs, x.size ≤ n := by
  induction fields generalizing first before s with
  | nil =>
      cases h
      exact fun x hx => hBefore x (List.mem_reverse.mp hx)
  | cons f fields ih =>
      obtain ⟨hText, hTexts⟩ := List.forall_mem_cons.mp hTexts
      unfold readPositional at h
      obtain ⟨⟨more, s₁⟩, hNext, h⟩ := ok_of_bind h
      have h₁ := nextElement_shorter hNext
      dsimp only at h
      split at h
      · obtain ⟨⟨x, s₂⟩, hItem, h⟩ := ok_of_bind h
        have h₂ := readItem_length hText hItem
        have hItem : x.size ≤ n ∧ s₂.length ≤ n := by omega
        exact ih hTexts (List.forall_mem_cons.mpr ⟨hItem.1, hBefore⟩) hItem.2 h
      · rw [hText.2] at h
        cases h

theorem finish_contents {α : Type} {close : Bytes → Bytes × Option Cause}
    {r : Except Fault (Contents α × Bytes)} {a : α} {rest : Bytes}
    (h : finish close r = .ok (a, rest)) : ∃ behind, r = .ok (.ok a, behind) := by
  obtain ⟨⟨contents, behind⟩, hRead, h⟩ := ok_of_bind h
  dsimp only at h
  split at h
  · cases h
  · cases h
  · next hContents _ =>
      cases h
      exact ⟨behind, hRead⟩

/-- The texts in a record fit into what it was read from. -/
theorem size_of_read {r : RecordKind} {text : Bytes} {xs : List Scalar}
    (hTexts : ∀ f ∈ r.fields, f.IsText) (h : read (.record r) text = .ok (.record xs)) :
    ∀ x ∈ xs, x.size ≤ text.length := by
  obtain ⟨rest, hShape⟩ : ∃ rest, readShape (.record r) text = .ok (.record xs, rest) := by
    unfold read at h
    cases hShape : readShape (.record r) text with
    | error fault =>
        rw [hShape] at h
        cases h
    | ok y =>
        obtain ⟨value, rest⟩ := y
        rw [hShape] at h
        dsimp only [bind, Except.bind] at h
        split at h
        · cases h
          exact ⟨rest, rfl⟩
        · cases h
  unfold readShape at hShape
  dsimp only at hShape
  split at hShape
  · cases hShape
  · next b behind hBlanks =>
      have hBehind := (skipBlanks_cons hBlanks).le
      split_ifs at hShape
      · obtain ⟨⟨fields, later⟩, hFields, hShape⟩ := ok_of_bind hShape
        cases hShape
        obtain ⟨_, hRead⟩ := finish_contents hFields
        exact size_of_readPositional hTexts (by simp) hBehind hRead
      · obtain ⟨⟨fields, later⟩, hFields, hShape⟩ := ok_of_bind hShape
        cases hShape
        obtain ⟨_, hRead⟩ := finish_contents hFields
        exact size_of_readMembers hTexts (by simp) hBehind hRead

/-! ### Written literals -/

/-- No character takes more than six bytes for one of its own in a literal. -/
theorem length_encode_quoteChar (c : Char) :
    (Utf8.encode (quoteChar c)).length ≤ 6 * (String.utf8EncodeChar c).length := by
  have hOne : 1 ≤ (String.utf8EncodeChar c).length := by
    rw [String.length_utf8EncodeChar]
    exact Char.utf8Size_pos c
  have hSix : (Utf8.encode (quoteChar c)).length ≤ 6 ∨
      Utf8.encode (quoteChar c) = String.utf8EncodeChar c := by
    rw [quoteChar]
    split_ifs with _ _ _ _ _ _ _ hControl
    · exact .inl (by decide)
    · exact .inl (by decide)
    · exact .inl (by decide)
    · exact .inl (by decide)
    · exact .inl (by decide)
    · exact .inl (by decide)
    · exact .inl (by decide)
    · rw [encode_control hControl]
      exact .inl (Nat.le_refl 6)
    · exact .inr (by simp [Utf8.encode, Char.toString])
  obtain hSix | hSame := hSix
  · omega
  · rw [hSame]
    omega

theorem length_encode_quote (text : String) :
    (Utf8.encode (quote text)).length ≤ 6 * (Utf8.encode text).length + 2 := by
  have hChars : ∀ l : List Char, (l.flatMap fun c => Utf8.encode (quoteChar c)).length ≤
      6 * (l.flatMap String.utf8EncodeChar).length := by
    intro l
    induction l with
    | nil => exact Nat.le_refl 0
    | cons c l ih =>
        have hFirst := length_encode_quoteChar c
        rw [List.flatMap_cons, List.flatMap_cons, List.length_append, List.length_append]
        omega
  have hText := hChars text.toList
  rw [encode_quote, Utf8.encode, List.length_cons, List.length_append]
  exact Nat.succ_le_succ (Nat.succ_le_succ hText)

end Json

end PeerLink
