import EngineFuzz.Json.Reader
import EngineFuzz.Json.Writer

/-!
JSON texts read back. What the writer makes of a value the reader takes for that value, whatever follows
it; the one thing that could be taken for more of a value is a character that goes on a number. Main
statement: reading a written value gives the value.
-/

namespace EngineFuzz.Json

/-! ### Numbers -/

/-- Whether the first character is no digit. -/
def EndsDigits (rest : List Char) : Prop := ∀ c ∈ rest.head?, c.isDigit = false

/-- Whether the first character cannot go on a number. -/
def EndsNumber (rest : List Char) : Prop :=
  ∀ c ∈ rest.head?, c.isDigit = false ∧ c ≠ '.' ∧ c ≠ 'e' ∧ c ≠ 'E'

theorem EndsNumber.digits {rest : List Char} (ends : EndsNumber rest) : EndsDigits rest :=
  fun c first => (ends c first).1

theorem isDigit_toDigits {n : Nat} : ∀ c ∈ Nat.toDigits 10 n, c.isDigit = true :=
  fun _ member => Nat.isDigit_of_mem_toDigits (by decide) (by decide) member

theorem exists_toDigits (n : Nat) : ∃ c cs, Nat.toDigits 10 n = c :: cs ∧ c.isDigit = true := by
  cases digits : Nat.toDigits 10 n with
  | nil => exact absurd digits Nat.toDigits_ne_nil
  | cons c cs => exact ⟨c, cs, rfl, isDigit_toDigits c (digits ▸ List.mem_cons_self)⟩

/-- No digit zero stands before others. -/
theorem head?_toDigits_ne {n : Nat} (positive : 0 < n) : (Nat.toDigits 10 n).head? ≠ some '0' := by
  induction n using Nat.strongRecOn with
  | ind n ih =>
    by_cases small : n < 10
    · rw [Nat.toDigits_of_lt_base small]
      simpa using Nat.ne_of_gt positive
    · rw [Nat.toDigits_of_base_le (by decide) (Nat.le_of_not_lt small), List.head?_append,
        List.head?_eq_some_head Nat.toDigits_ne_nil, Option.some_or, ← List.head?_eq_some_head]
      exact ih (n / 10) (by omega) (by omega)

theorem takeWhile_of_endsDigits {rest : List Char} (ends : EndsDigits rest) :
    rest.takeWhile Char.isDigit = [] ∧ rest.dropWhile Char.isDigit = rest := by
  cases rest with
  | nil => exact ⟨rfl, rfl⟩
  | cons c rest =>
    have other : c.isDigit = false := ends c rfl
    simp [other]

theorem digits?_toDigits (n : Nat) {rest : List Char} (ends : EndsDigits rest) :
    digits? (Nat.toDigits 10 n ++ rest) = some (Nat.toDigits 10 n, rest) := by
  obtain ⟨taken, dropped⟩ := takeWhile_of_endsDigits ends
  have digits : (Nat.toDigits 10 n ++ rest).takeWhile Char.isDigit = Nat.toDigits 10 n := by
    rw [List.takeWhile_append_of_pos isDigit_toDigits, taken, List.append_nil]
  have after : (Nat.toDigits 10 n ++ rest).dropWhile Char.isDigit = rest := by
    rw [List.dropWhile_append_of_pos isDigit_toDigits, dropped]
  obtain ⟨c, cs, first, -⟩ := exists_toDigits n
  rw [digits?, digits, after, first]

theorem wholePart?_toDigits (n : Nat) {rest : List Char} (ends : EndsDigits rest) :
    wholePart? (Nat.toDigits 10 n ++ rest) = some (Nat.toDigits 10 n, rest) := by
  rcases Nat.eq_zero_or_pos n with rfl | positive
  · rw [Nat.toDigits_zero, List.singleton_append, wholePart?, (takeWhile_of_endsDigits ends).1]
    rfl
  · have whole := digits?_toDigits n ends
    obtain ⟨c, cs, first, -⟩ := exists_toDigits n
    have other := head?_toDigits_ne positive
    rw [first] at whole other ⊢
    rw [← whole, wholePart?]
    intro rest same
    cases same
    exact other rfl

theorem fraction?_of_endsNumber {rest : List Char} (ends : ∀ c ∈ rest.head?, c ≠ '.') :
    fraction? rest = some ([], rest) := by
  rw [fraction?]
  rintro after rfl
  exact ends '.' rfl rfl

theorem exponent?_of_endsNumber {rest : List Char} (ends : EndsNumber rest) :
    exponent? rest = some (none, rest) := by
  cases rest with
  | nil => rfl
  | cons c rest =>
    obtain ⟨-, -, lower, upper⟩ := ends c rfl
    simp [exponent?, lower, upper]

theorem exponent?_signed (exponent : Int) {rest : List Char} (ends : EndsDigits rest) :
    exponent? ('e' :: (signed (decide (exponent < 0)) exponent.natAbs ++ rest)) =
      some (some exponent, rest) := by
  have digits := digits?_toDigits exponent.natAbs ends
  have value : digitsValue (Nat.toDigits 10 exponent.natAbs) = exponent.natAbs :=
    Nat.ofDigitChars_ten_toDigits
  by_cases negative : exponent < 0
  · have sign : -(exponent.natAbs : Int) = exponent := by omega
    have minus : signed (decide (exponent < 0)) exponent.natAbs ++ rest =
        '-' :: (Nat.toDigits 10 exponent.natAbs ++ rest) := by
      rw [decide_eq_true negative]
      rfl
    simp only [minus, exponent?, true_or, if_true, digits, Option.map_some, value, sign]
  · have sign : (exponent.natAbs : Int) = exponent := by omega
    obtain ⟨c, cs, first, isDigit⟩ := exists_toDigits exponent.natAbs
    rw [first] at value
    rw [first, List.cons_append] at digits
    simp only [exponent?, signed, negative, decide_false, Bool.false_eq_true, if_false, List.nil_append,
      first, List.cons_append, true_or, if_true]
    split
    next same =>
      cases same
      cases isDigit
    next same =>
      cases same
      cases isDigit
    next =>
      simp [digits, value, sign]

theorem unsigned?_integer (negative : Bool) (n : Nat) {rest : List Char} (ends : EndsNumber rest) :
    unsigned? negative (Nat.toDigits 10 n ++ rest) = some (.integer negative n, rest) := by
  have value : digitsValue (Nat.toDigits 10 n) = n := Nat.ofDigitChars_ten_toDigits
  simp [unsigned?, wholePart?_toDigits n ends.digits,
    fraction?_of_endsNumber fun c first => (ends c first).2.1,
    exponent?_of_endsNumber ends, value]

theorem unsigned?_decimal (negative : Bool) (digits : Nat) (exponent : Int) {rest : List Char}
    (ends : EndsNumber rest) :
    unsigned? negative
        (Nat.toDigits 10 digits ++ 'e' :: (signed (decide (exponent < 0)) exponent.natAbs ++ rest)) =
      some (.decimal negative digits exponent, rest) := by
  have value : digitsValue (Nat.toDigits 10 digits) = digits := Nat.ofDigitChars_ten_toDigits
  have after : EndsDigits ('e' :: (signed (decide (exponent < 0)) exponent.natAbs ++ rest)) := by
    intro c first
    cases first
    rfl
  simp [unsigned?, wholePart?_toDigits digits after, fraction?, exponent?_signed exponent ends.digits, value]

/-- The sign is settled by the first character. -/
theorem number?_signed (negative : Bool) (n : Nat) (rest : List Char) :
    number? (signed negative n ++ rest) = unsigned? negative (Nat.toDigits 10 n ++ rest) := by
  cases negative with
  | true => rfl
  | false =>
    obtain ⟨c, cs, first, isDigit⟩ := exists_toDigits n
    simp only [signed, Bool.false_eq_true, if_false, List.nil_append, first, List.cons_append]
    rw [number?]
    rintro rest same
    cases same
    cases isDigit

/-! ### Strings -/

theorem hexValue?_hexDigit {n : Nat} (digit : n < 16) : hexValue? (hexDigit n) = some n := by
  have all : ∀ n : Fin 16, hexValue? (hexDigit n.val) = some n.val := by decide +kernel
  exact all ⟨n, digit⟩

/-- Two digits name a unit below the halves of pairs. -/
theorem unit?_hexDigit {n : Nat} (small : n < 0x20) :
    unit? '0' '0' (hexDigit (n / 16)) (hexDigit (n % 16)) = some n := by
  have zero : hexValue? '0' = some 0 := hexValue?_hexDigit (by decide : 0 < 16)
  have value : ((0 * 16 + 0) * 16 + n / 16) * 16 + n % 16 = n := by omega
  simp only [unit?, zero, hexValue?_hexDigit (by omega : n / 16 < 16),
    hexValue?_hexDigit (by omega : n % 16 < 16), bind, Option.bind, pure, value]

theorem stringFrom_control (read : Option (List Char)) {c : Char} (control : c.toNat < 0x20)
    (rest : List Char) :
    stringFrom read
        ('\\' :: 'u' :: '0' :: '0' :: hexDigit (c.toNat / 16) :: hexDigit (c.toNat % 16) :: rest) =
      stringFrom (read.map (c :: ·)) rest := by
  have high : isHighHalf c.toNat = false := by
    rw [isHighHalf, Bool.and_eq_false_iff, decide_eq_false_iff_not]
    omega
  have low : isLowHalf c.toNat = false := by
    rw [isLowHalf, Bool.and_eq_false_iff, decide_eq_false_iff_not]
    omega
  rw [stringFrom, unit?_hexDigit control]
  simp only [high, low, Bool.false_eq_true, if_false, Char.ofNat_toNat]

theorem stringFrom_plain (read : Option (List Char)) {c : Char} (quote : c ≠ '"') (slash : c ≠ '\\')
    (visible : ¬ c.toNat < 0x20) (rest : List Char) :
    stringFrom read (c :: rest) = stringFrom (read.map (c :: ·)) rest := by
  rw [stringFrom]
  · simp only [visible, slash, or_self, if_false]
  all_goals
    intros
    simp_all

/-- Each character is read for itself, however it is written. -/
theorem stringFrom_escape (read : Option (List Char)) (c : Char) (rest : List Char) :
    stringFrom read (escape c ++ rest) = stringFrom (read.map (c :: ·)) rest := by
  unfold escape
  split
  next same => simp [same, stringFrom, shortEscape?]
  next quote =>
    split
    next same => simp [same, stringFrom, shortEscape?]
    next slash =>
      split
      next same => simp [same, stringFrom, shortEscape?]
      · split
        next same => simp [same, stringFrom, shortEscape?]
        · split
          next same => simp [same, stringFrom, shortEscape?]
          · split
            next same => simp [same, stringFrom, shortEscape?]
            · split
              next same => simp [same, stringFrom, shortEscape?]
              · split
                next control => exact stringFrom_control read control rest
                next visible => exact stringFrom_plain read quote slash visible rest

theorem stringFrom_flatMap (cs read : List Char) (rest : List Char) :
    stringFrom (some read) (cs.flatMap escape ++ '"' :: rest) =
      some (some (String.ofList (read.reverse ++ cs)), rest) := by
  induction cs generalizing read with
  | nil => simp [stringFrom]
  | cons c cs ih =>
    rw [List.flatMap_cons, List.append_assoc, stringFrom_escape, Option.map_some, ih]
    simp

/-- A string is read to its end, and one that is no text as none. -/
theorem exists_quoted (s : Option String) (rest : List Char) :
    ∃ inner, quoted s ++ rest = '"' :: inner ∧ stringFrom (some []) inner = some (s, rest) := by
  cases s with
  | none => exact ⟨_, rfl, rfl⟩
  | some s =>
    refine ⟨s.toList.flatMap escape ++ '"' :: rest, by simp [quoted], ?_⟩
    rw [stringFrom_flatMap, List.reverse_nil, List.nil_append, String.ofList_toList]

/-! ### Values -/

theorem skipBlanks_of_isBlank {c : Char} (plain : isBlank c = false) (cs : List Char) :
    skipBlanks (c :: cs) = c :: cs := by
  simp [skipBlanks, plain]

theorem isBlank_of_isDigit {c : Char} (digit : c.isDigit = true) : isBlank c = false := by
  cases blank : isBlank c with
  | false => rfl
  | true =>
    simp only [isBlank, Bool.or_eq_true, decide_eq_true_eq] at blank
    rcases blank with ((rfl | rfl) | rfl) | rfl <;> cases digit

/-- What begins with a sign or a digit is read as a number. -/
theorem value?_number {c : Char} (start : c = '-' ∨ c.isDigit = true) (fuel : Nat) (cs : List Char) :
    value? (fuel + 1) (c :: cs) = number? (c :: cs) := by
  have plain : isBlank c = false := by
    rcases start with rfl | digit
    · rfl
    · exact isBlank_of_isDigit digit
  rw [value?, skipBlanks_of_isBlank plain]
  split
  case h_7 => rfl
  all_goals
    next same =>
      cases same
      rcases start with sign | digit
      · cases sign
      · cases digit

theorem exists_signed (negative : Bool) (n : Nat) :
    ∃ c cs, signed negative n = c :: cs ∧ (c = '-' ∨ c.isDigit = true) := by
  cases negative with
  | true => exact ⟨'-', _, rfl, .inl rfl⟩
  | false =>
    obtain ⟨c, cs, first, digit⟩ := exists_toDigits n
    exact ⟨c, cs, first, .inr digit⟩

theorem value?_signed (fuel : Nat) (negative : Bool) (n : Nat) (rest : List Char) :
    value? (fuel + 1) (signed negative n ++ rest) =
      unsigned? negative (Nat.toDigits 10 n ++ rest) := by
  rw [← number?_signed]
  obtain ⟨c, cs, first, start⟩ := exists_signed negative n
  rw [first, List.cons_append, value?_number start]

/-- No value starts with a blank or like the end of an array. -/
theorem exists_chars (j : Json) : ∃ c cs, chars j = c :: cs ∧ isBlank c = false ∧ c ≠ ']' := by
  have ofSigned (negative : Bool) (n : Nat) (rest : List Char) :
      ∃ c cs, signed negative n ++ rest = c :: cs ∧ isBlank c = false ∧ c ≠ ']' := by
    obtain ⟨c, cs, first, sign | digit⟩ := exists_signed negative n
    · exact ⟨c, cs ++ rest, by rw [first, List.cons_append], by rw [sign]; rfl, by rw [sign]; decide⟩
    · refine ⟨c, cs ++ rest, by rw [first, List.cons_append], isBlank_of_isDigit digit, ?_⟩
      rintro rfl
      cases digit
  cases j with
  | null => exact ⟨_, _, rfl, rfl, by decide⟩
  | bool b => cases b <;> exact ⟨_, _, rfl, rfl, by decide⟩
  | integer negative n => simpa [chars] using ofSigned negative n []
  | decimal negative n exponent => exact ofSigned negative n _
  | text s => cases s <;> exact ⟨_, _, rfl, rfl, by decide⟩
  | array items => exact ⟨_, _, rfl, rfl, by decide⟩
  | object fields => exact ⟨_, _, rfl, rfl, by decide⟩

theorem endsNumber_cons {c : Char} (other : c.isDigit = false ∧ c ≠ '.' ∧ c ≠ 'e' ∧ c ≠ 'E')
    (rest : List Char) : EndsNumber (c :: rest) := by
  intro d first
  cases first
  exact other

theorem exists_charsItems (item : Json) (items : List Json) (rest : List Char) :
    ∃ c cs, charsItems (item :: items) ++ rest = c :: cs ∧ isBlank c = false ∧ c ≠ ']' := by
  obtain ⟨c, cs, first, plain, other⟩ := exists_chars item
  cases items with
  | nil => exact ⟨c, cs ++ rest, by rw [charsItems, first, List.cons_append], plain, other⟩
  | cons next items =>
    refine ⟨c, cs ++ ',' :: charsItems (next :: items) ++ rest, ?_, plain, other⟩
    rw [charsItems, first, List.cons_append, List.cons_append]

theorem exists_charsFields (field : Option String × Json) (fields : List (Option String × Json))
    (rest : List Char) : ∃ cs, charsFields (field :: fields) ++ rest = '"' :: cs := by
  obtain ⟨name, value⟩ := field
  have first (more : List Char) : ∃ cs, quoted name ++ more = '"' :: cs :=
    (exists_quoted name more).imp fun _ both => both.1
  cases fields with
  | nil =>
    rw [charsFields, List.append_assoc]
    exact first _
  | cons next fields =>
    rw [charsFields, List.append_assoc]
    exact first _

/-- One field, and the two ways to go on. -/
theorem fields?_quoted (fuel : Nat) (read : List (Option String × Json)) (name : Option String)
    (cs rest : List Char) (value : Json) :
    (value? fuel cs = some (value, ',' :: rest) →
      fields? (fuel + 1) read (quoted name ++ ':' :: cs) = fields? fuel ((name, value) :: read) rest) ∧
    (value? fuel cs = some (value, '}' :: rest) →
      fields? (fuel + 1) read (quoted name ++ ':' :: cs) =
        some (.object ((name, value) :: read).reverse, rest)) := by
  obtain ⟨named, written, taken⟩ := exists_quoted name (':' :: cs)
  rw [written, fields?, skipBlanks_of_isBlank rfl]
  constructor
  · intro inner
    simp only [taken, skipBlanks_of_isBlank (rfl : isBlank ':' = false), inner,
      skipBlanks_of_isBlank (rfl : isBlank ',' = false)]
  · intro inner
    simp only [taken, skipBlanks_of_isBlank (rfl : isBlank ':' = false), inner,
      skipBlanks_of_isBlank (rfl : isBlank '}' = false)]

-- The recursion is on the fuel, which falls with every call; one unit for each character is enough.
mutual

theorem value?_chars (fuel : Nat) (j : Json) (rest : List Char) (ends : EndsNumber rest)
    (enough : (chars j).length ≤ fuel) : value? fuel (chars j ++ rest) = some (j, rest) := by
  match fuel, j with
  | 0, j =>
    obtain ⟨c, cs, first, -⟩ := exists_chars j
    simp [first] at enough
  | fuel + 1, .null => rfl
  | fuel + 1, .bool true => rfl
  | fuel + 1, .bool false => rfl
  | fuel + 1, .integer negative n => rw [chars, value?_signed, unsigned?_integer negative n ends]
  | fuel + 1, .decimal negative digits exponent =>
    rw [chars, List.append_assoc, List.cons_append, value?_signed,
      unsigned?_decimal negative digits exponent ends]
  | fuel + 1, .text s =>
    obtain ⟨inner, written, read⟩ := exists_quoted s rest
    rw [chars, written, value?, skipBlanks_of_isBlank rfl]
    simp only [read, Option.map_some]
  | fuel + 1, .array [] => rfl
  | fuel + 1, .array (item :: items) =>
    have read := items?_charsItems fuel item items [] rest (by simpa [chars] using enough)
    obtain ⟨c, cs, first, plain, other⟩ := exists_charsItems item items (']' :: rest)
    have written : chars (.array (item :: items)) ++ rest = '[' :: c :: cs := by
      rw [← first]
      simp [chars]
    rw [written, value?, skipBlanks_of_isBlank rfl]
    simp only
    rw [skipBlanks_of_isBlank plain]
    split
    next same => cases same; exact absurd rfl other
    next => rw [← first, read]; rfl
  | fuel + 1, .object [] => rfl
  | fuel + 1, .object (field :: fields) =>
    have read := fields?_charsFields fuel field fields [] rest (by simpa [chars] using enough)
    obtain ⟨cs, first⟩ := exists_charsFields field fields ('}' :: rest)
    have written : chars (.object (field :: fields)) ++ rest = '{' :: '"' :: cs := by
      rw [← first]
      simp [chars]
    rw [written, value?, skipBlanks_of_isBlank rfl]
    simp only
    rw [skipBlanks_of_isBlank rfl]
    rw [first] at read
    exact read

theorem items?_charsItems (fuel : Nat) (item : Json) (items read : List Json)
    (rest : List Char) (enough : (charsItems (item :: items)).length + 1 ≤ fuel) :
    items? fuel read (charsItems (item :: items) ++ ']' :: rest) =
      some (.array (read.reverse ++ item :: items), rest) := by
  match fuel, items with
  | fuel + 1, [] =>
    have last := value?_chars fuel item (']' :: rest) (endsNumber_cons (by decide) rest)
      (by simpa [charsItems] using enough)
    rw [charsItems, items?, last]
    simp only [skipBlanks_of_isBlank (rfl : isBlank ']' = false), List.reverse_cons]
  | fuel + 1, next :: items =>
    rw [charsItems, List.length_append, List.length_cons] at enough
    have first := value?_chars fuel item (',' :: (charsItems (next :: items) ++ ']' :: rest))
      (endsNumber_cons (by decide) _) (by omega)
    have others := items?_charsItems fuel next items (item :: read) rest (by omega)
    rw [charsItems, List.append_assoc, List.cons_append, items?, first]
    simp only [skipBlanks_of_isBlank (rfl : isBlank ',' = false), others, List.reverse_cons,
      List.append_assoc, List.singleton_append]

theorem fields?_charsFields (fuel : Nat) (field : Option String × Json)
    (fields read : List (Option String × Json)) (rest : List Char)
    (enough : (charsFields (field :: fields)).length + 1 ≤ fuel) :
    fields? fuel read (charsFields (field :: fields) ++ '}' :: rest) =
      some (.object (read.reverse ++ field :: fields), rest) := by
  obtain ⟨name, value⟩ := field
  match fuel, fields with
  | fuel + 1, [] =>
    rw [charsFields, List.length_append, List.length_cons] at enough
    have last := value?_chars fuel value ('}' :: rest) (endsNumber_cons (by decide) rest) (by omega)
    rw [charsFields, List.append_assoc, List.cons_append,
      (fields?_quoted fuel read name _ rest value).2 last, List.reverse_cons]
  | fuel + 1, next :: fields =>
    simp only [charsFields, List.length_append, List.length_cons] at enough
    have first := value?_chars fuel value (',' :: (charsFields (next :: fields) ++ '}' :: rest))
      (endsNumber_cons (by decide) _) (by omega)
    have others := fields?_charsFields fuel next fields ((name, value) :: read) rest (by omega)
    rw [charsFields, List.append_assoc, List.cons_append, List.append_assoc, List.cons_append,
      (fields?_quoted fuel read name _ _ value).1 first, others, List.reverse_cons, List.append_assoc,
      List.singleton_append]

end

/-- A text that was written holds what it was written from. -/
theorem read?_write (j : Json) : read? j.write = some j := by
  have read := value?_chars (2 * j.chars.length + 2) j [] (by simp [EndsNumber]) (by omega)
  rw [List.append_nil] at read
  rw [read?, write, String.toList_ofList, read]
  rfl

end EngineFuzz.Json
