import PeerLink.Json.Shape
import PeerLink.Proofs.Json.Skipping

/-! Lists of texts, and objects with blanks between their parts and members that no field is named after. What
one member does to the fields that are known is said by `Takes`; a whole object is read by taking in its
members one by one (`readMembers_takesAll`). -/
namespace PeerLink.Json

open Text

/-- A string literal for a text, with its quotes. -/
def Literal (text : String) (s : Bytes) : Prop :=
  ∃ inner, s = byte '"' :: (inner ++ [byte '"']) ∧ Spells inner text.toList

theorem literal_quote (text : String) : Literal text (Utf8.encode (quote text)) :=
  spells_quote text

/-- The literal that is written for a text. -/
def quotedBytes (text : String) : Bytes :=
  Utf8.encode (quote text)

theorem literal_quotedBytes (text : String) : Literal text (quotedBytes text) :=
  literal_quote text

theorem Literal.ne_nil {text : String} {s : Bytes} (h : Literal text s) : s ≠ [] := by
  obtain ⟨inner, rfl, -⟩ := h
  exact List.cons_ne_nil _ _

/-- The bytes between two members; none stand before the first one. -/
def separator (first : Bool) : Bytes :=
  if first then [] else [byte ',']

/-- Parts with commas between them. -/
def separated (first : Bool) : List Bytes → Bytes
  | [] => []
  | part :: parts => separator first ++ (part ++ separated false parts)

theorem separated_singleton (part : Bytes) : separated true [part] = part :=
  List.append_nil part

theorem separated_cons_cons (part next : Bytes) (parts : List Bytes) :
    separated true (part :: next :: parts) = part ++ byte ',' :: separated true (next :: parts) :=
  rfl

theorem separated_true (parts : List Bytes) :
    separated true parts = [byte ','].intercalate parts := by
  induction parts with
  | nil => rfl
  | cons part parts ih =>
      cases parts with
      | nil => rw [List.intercalate_singleton, separated_singleton]
      | cons next parts =>
          rw [List.intercalate_cons_cons, ← ih, List.append_assoc, separated_cons_cons,
            List.singleton_append]

theorem length_separated (first : Bool) {parts : List Bytes} (h : ∀ part ∈ parts, part ≠ []) :
    parts.length ≤ (separated first parts).length := by
  induction parts generalizing first with
  | nil => exact Nat.le_refl 0
  | cons part parts ih =>
      obtain ⟨hPart, hLater⟩ := List.forall_mem_cons.mp h
      have hSome := List.length_pos_of_ne_nil hPart
      have hCount := ih false hLater
      rw [separated, List.length_append, List.length_append, List.length_cons]
      omega

/-- A shape that is read up to blanks at the end of the text. -/
theorem read_of_readShape {shape : Shape} {text rest : Bytes} {value : Value}
    (h : readShape shape text = .ok (value, rest)) (hBlank : Blank rest) :
    Json.read shape text = .ok value := by
  have hEnd : skipBlanks rest = [] := List.dropWhile_eq_nil_iff.mpr hBlank
  simp [Json.read, h, hEnd, bind, Except.bind, pure, Except.pure, Except.mapError]

theorem readScalar_literal {text : String} {w s : Bytes} (hBlank : Blank w) (h : Literal text s)
    (rest : Bytes) : readScalar .text (w ++ (s ++ rest)) = .ok (.text text, rest) := by
  obtain ⟨inner, rfl, hSpells⟩ := h
  rw [List.cons_append, List.append_assoc, List.singleton_append, readScalar,
    skipBlanks_to hBlank (by decide)]
  simp [readText_of_spells hSpells, bind, Except.bind, pure, Except.pure]

theorem readItem_required (kind : ScalarKind) (rest : Bytes) :
    readItem ⟨kind, false⟩ rest = readScalar kind rest := by
  have hAgain : readScalar kind (skipBlanks rest) = readScalar kind rest := by
    rw [readScalar, skipBlanks_skipBlanks, ← readScalar]
  exact hAgain

theorem readItem_literal {text : String} {w s : Bytes} (hBlank : Blank w) (h : Literal text s)
    (optional : Bool) (rest : Bytes) :
    readItem ⟨.text, optional⟩ (w ++ (s ++ rest)) = .ok (.text text, rest) := by
  have hScalar := readScalar_literal blank_nil h rest
  obtain ⟨inner, rfl, -⟩ := h
  simp only [List.cons_append, List.nil_append] at hScalar ⊢
  rw [readItem, skipBlanks_to hBlank (by decide)]
  cases optional <;> exact hScalar

/-! ### Lists of texts -/

theorem nextElement_literal {text : String} {s : Bytes} (h : Literal text s) (first : Bool)
    (rest : Bytes) : nextElement first (separator first ++ (s ++ rest)) = .ok (true, s ++ rest) := by
  obtain ⟨inner, rfl, -⟩ := h
  cases first <;> rfl

/-- All texts of a list are read, in order. -/
theorem readElements_quoted (items : List String) (rest : Bytes) (before : List Scalar) (fuel : Nat) :
    readElements .text (fuel + items.length + 1) before
        (separated before.isEmpty (items.map quotedBytes) ++ byte ']' :: rest) =
      .ok (.ok (before.reverse ++ items.map .text), byte ']' :: rest) := by
  induction items generalizing before with
  | nil =>
      have hClose : nextElement before.isEmpty (byte ']' :: rest) =
          .ok (false, byte ']' :: rest) := rfl
      simp [separated, readElements, hClose, bind, Except.bind, pure, Except.pure]
  | cons text items ih =>
      generalize hBehind : separated false (items.map quotedBytes) ++ byte ']' :: rest =
        behind at ih
      have hNext := nextElement_literal (literal_quotedBytes text) before.isEmpty behind
      have hScalar := readScalar_literal blank_nil (literal_quotedBytes text) behind
      have hLater := ih (.text text :: before)
      rw [List.isEmpty_cons, hBehind] at hLater
      rw [List.nil_append] at hScalar
      rw [List.map_cons, separated, List.append_assoc, List.append_assoc, hBehind, List.length_cons,
        ← Nat.add_assoc, readElements, hNext]
      simp only [bind, Except.bind, if_pos, hScalar, hLater]
      rw [List.reverse_cons, List.append_assoc, List.map_cons, List.singleton_append]

theorem readShape_texts (items : List String) :
    readShape (.list .text)
        (byte '[' :: (separated true (items.map quotedBytes) ++ [byte ']'])) =
      .ok (.list (items.map .text), []) := by
  have hCount : items.length ≤ (separated true (items.map quotedBytes)).length := by
    refine (List.length_map _).symm.le.trans (length_separated true fun part hPart => ?_)
    obtain ⟨text, -, rfl⟩ := List.mem_map.mp hPart
    exact (literal_quotedBytes text).ne_nil
  obtain ⟨fuel, hFuel⟩ : ∃ fuel,
      (separated true (items.map quotedBytes) ++ [byte ']']).length + 1 =
        fuel + items.length + 1 := by
    refine ⟨_, (congrArg (· + 1) (Nat.sub_add_cancel ?_)).symm⟩
    rw [List.length_append]
    omega
  have hElements := readElements_quoted items [] [] fuel
  have hBracket (s : Bytes) : skipBlanks (byte '[' :: s) = byte '[' :: s := rfl
  rw [readShape, hBracket]
  dsimp only
  rw [if_pos rfl, hFuel]
  rw [List.isEmpty_nil] at hElements
  rw [hElements]
  rfl

/-! ### Members of objects -/

/-- A member of an object: its name, and a value that is written so, with blanks around all parts. -/
inductive Member (name : String) (Written : Bytes → Prop) : Bytes → Prop where
  | parts {a key b c value d : Bytes} (before : Blank a) (hKey : Literal name key)
      (behindKey : Blank b) (beforeValue : Blank c) (hValue : Written value) (behind : Blank d) :
      Member name Written (a ++ (key ++ (b ++ byte ':' :: (c ++ (value ++ d)))))

theorem Member.ne_nil {name : String} {Written : Bytes → Prop} {m : Bytes}
    (h : Member name Written m) : m ≠ [] := by
  obtain ⟨-, hKey, -, -, -, -⟩ := h
  exact List.append_ne_nil_of_right_ne_nil _ (List.append_ne_nil_of_left_ne_nil hKey.ne_nil _)

/-- A member of an object whose value is a text, as it is written. -/
def textMember (key value : String) : Bytes :=
  Utf8.encode (quote key) ++ byte ':' :: Utf8.encode (quote value)

theorem member_textMember (key value : String) :
    Member key (Literal value) (textMember key value) := by
  have hMember := Member.parts blank_nil (literal_quote key) blank_nil blank_nil
    (literal_quote value) blank_nil
  rwa [List.append_nil] at hMember

/-- What a member of an object makes of the fields that are known: it is passed over, or it is a text field
that was not there before. -/
inductive Takes (r : RecordKind) : Known → Bytes → Known → Prop where
  | other {known : Known} {name : String} {m : Bytes}
      (hOther : r.fields.find? (fun f => f.name == name) = none)
      (member : Member name (WellFormed .value) m) : Takes r known m known
  | text {known : Known} {name value : String} {field : Field} {m : Bytes}
      (hField : r.fields.find? (fun f => f.name == name) = some field)
      (hText : field.kind = ⟨.text, false⟩) (hNew : known.lookup name = none)
      (member : Member name (Literal value) m) : Takes r known m ((name, .text value) :: known)

/-- What several members make of the known fields, one after the other. -/
inductive TakesAll (r : RecordKind) : Known → List Bytes → Known → Prop where
  | nil {known : Known} : TakesAll r known [] known
  | cons {known next last : Known} {m : Bytes} {ms : List Bytes} (first : Takes r known m next)
      (later : TakesAll r next ms last) : TakesAll r known (m :: ms) last

theorem nextMember_blanks {w a : Bytes} (hBlank : Blank w) (hBefore : Blank a) (first : Bool)
    (s : Bytes) :
    nextMember first (w ++ (separator first ++ (a ++ byte '"' :: s))) = .ok (true, s) := by
  cases first with
  | true =>
      rw [separator, if_pos rfl, List.nil_append, nextMember, skipBlanks_append hBlank,
        skipBlanks_to hBefore (by decide)]
      rfl
  | false =>
      rw [separator, if_neg Bool.false_ne_true, List.singleton_append, nextMember,
        skipBlanks_to hBlank (by decide)]
      dsimp only
      rw [skipBlanks_to hBefore (by decide)]
      rfl

theorem readColon_blanks {b : Bytes} (hBlank : Blank b) (s : Bytes) :
    readColon (b ++ byte ':' :: s) = .ok s := by
  rw [readColon, skipBlanks_to hBlank (by decide)]
  rfl

section Members

variable {r : RecordKind} {known next : Known} {m : Bytes} {ms : List Bytes} {w v rest : Bytes}

/-- One member is taken in. The blanks behind its value stand before what comes next. -/
theorem readMembers_takes (h : Takes r known m next) (hBlank : Blank w) (hRest : Ends rest)
    (fuel : Nat) (first : Bool) : ∃ d, Blank d ∧
      readMembers r (fuel + 1) first known (w ++ (separator first ++ (m ++ rest))) =
        readMembers r fuel false next (d ++ rest) := by
  cases h with
  | other hOther member =>
      obtain @⟨a, _, b, c, value, d, before, ⟨key, rfl, hKey⟩, behindKey, beforeValue, hValue, behind⟩ :=
        member
      have hNext := nextMember_blanks hBlank before first
        (key ++ byte '"' :: (b ++ byte ':' :: (c ++ (value ++ (d ++ rest)))))
      have hSkip := skipValue_of_wellFormed beforeValue hValue (hRest.blanks behind)
      refine ⟨d, behind, ?_⟩
      simp only [List.append_assoc, List.cons_append, List.nil_append] at hNext ⊢
      simp [readMembers, hNext, readText_of_spells hKey, hOther, readColon_blanks behindKey, hSkip,
        bind, Except.bind]
  | text hField hText hNew member =>
      obtain @⟨a, _, b, c, value, d, before, ⟨key, rfl, hKey⟩, behindKey, beforeValue, hValue, behind⟩ :=
        member
      have hNext := nextMember_blanks hBlank before first
        (key ++ byte '"' :: (b ++ byte ':' :: (c ++ (value ++ (d ++ rest)))))
      have hItem := readItem_literal beforeValue hValue false (d ++ rest)
      refine ⟨d, behind, ?_⟩
      simp only [List.append_assoc, List.cons_append, List.nil_append] at hNext ⊢
      simp [readMembers, hNext, readText_of_spells hKey, hField, hNew, hText,
        readColon_blanks behindKey, hItem, bind, Except.bind]

theorem ends_separated (ms : List Bytes) (v : Bytes) :
    Ends (separated false ms ++ byte '\x7d' :: v) := by
  cases ms with
  | nil => exact ends_closing .object v
  | cons m ms => exact ends_comma _

theorem readMembers_closing (hBlank : Blank w) (fuel : Nat) (first : Bool) :
    readMembers r (fuel + 1) first known (w ++ byte '\x7d' :: v) =
      .ok (completeFields known r.fields, byte '\x7d' :: v) := by
  have hNext : nextMember first (w ++ byte '\x7d' :: v) = .ok (false, byte '\x7d' :: v) := by
    rw [nextMember, skipBlanks_to hBlank (by decide)]
    rfl
  simp [readMembers, hNext, bind, Except.bind, pure, Except.pure]

/-- All members of an object are taken in, one by one. -/
theorem readMembers_takesAll (h : TakesAll r known ms next) (hBlank : Blank w) (fuel : Nat)
    (first : Bool) :
    readMembers r (fuel + ms.length + 1) first known (w ++ (separated first ms ++ byte '\x7d' :: v)) =
      .ok (completeFields next r.fields, byte '\x7d' :: v) := by
  induction h generalizing w first with
  | nil => exact readMembers_closing hBlank fuel first
  | @cons known _ _ m ms takes _ ih =>
      obtain ⟨d, hBehind, hTake⟩ := readMembers_takes takes hBlank (ends_separated ms v)
        (fuel + ms.length + 1) first
      rw [separated, List.append_assoc, List.append_assoc, List.length_cons, ← Nat.add_assoc, hTake]
      exact ih hBehind false

theorem TakesAll.ne_nil (h : TakesAll r known ms next) : ∀ m ∈ ms, m ≠ [] := by
  induction h with
  | nil => exact fun _ hm => nomatch hm
  | cons takes _ ih =>
      refine List.forall_mem_cons.mpr ⟨?_, ih⟩
      cases takes with
      | other _ member => exact member.ne_nil
      | text _ _ _ member => exact member.ne_nil

theorem TakesAll.append {mid : Known} {ms' : List Bytes} (h : TakesAll r known ms mid)
    (h' : TakesAll r mid ms' next) : TakesAll r known (ms ++ ms') next := by
  induction h with
  | nil => exact h'
  | cons takes _ ih => exact .cons takes (ih h')

/-- An object is read as the record of its known fields. -/
theorem readShape_object {xs : List Scalar} (h : TakesAll r [] ms next)
    (hComplete : completeFields next r.fields = .ok xs) (hBlank : Blank w) :
    readShape (.record r) (w ++ byte '\x7b' :: (separated true ms ++ byte '\x7d' :: v)) =
      .ok (.record xs, v) := by
  have hCount := length_separated true h.ne_nil
  obtain ⟨fuel, hFuel⟩ : ∃ fuel,
      (separated true ms ++ byte '\x7d' :: v).length + 1 = fuel + ms.length + 1 := by
    refine ⟨(separated true ms ++ byte '\x7d' :: v).length - ms.length, ?_⟩
    rw [List.length_append]
    omega
  have hMembers := readMembers_takesAll h blank_nil fuel true (v := v)
  rw [List.nil_append, hComplete] at hMembers
  rw [readShape, skipBlanks_to hBlank (by decide)]
  dsimp only
  rw [if_neg (by decide), if_pos rfl, hFuel, hMembers]
  rfl

end Members

end PeerLink.Json
