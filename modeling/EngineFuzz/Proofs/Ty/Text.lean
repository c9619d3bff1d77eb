import EngineFuzz.Ty.Basic
import Mathlib.Data.List.Infix

/-!
Types read off their texts. The text of a type starts with a keyword, and no keyword is the beginning of
another; parameters start with a dot, and after the last of them comes a bracket. Main statement: the text of a
type is not the beginning of the text of any other type.
-/

namespace EngineFuzz

namespace Ty

/-! ### Keywords -/

/-- What the text of a type starts with: the whole of it, unless the type is of functions with a signature. -/
def keyword : Ty → String
  | anything => ".anything"
  | undefined => ".undefined"
  | integer => ".integer"
  | float => ".float"
  | boolean => ".boolean"
  | string => ".string"
  | anyFunction => ".function()"
  | function .. => ".function(["

def keywords : List String :=
  [".anything", ".undefined", ".integer", ".float", ".boolean", ".string", ".function()", ".function(["]

theorem keyword_mem (ty : Ty) : ty.keyword ∈ keywords := by
  cases ty <;> simp [keyword, keywords]

/-- A keyword ends where it does, whatever follows. -/
theorem eq_of_mem_keywords {first second : String} (known : first ∈ keywords) (known' : second ∈ keywords)
    {rest rest' : List Char} (same : first.toList ++ rest = second.toList ++ rest') :
    first = second ∧ rest = rest' := by
  have apart : ∀ first ∈ keywords, ∀ second ∈ keywords, first.toList <+: second.toList → first = second := by
    decide
  have begins : first.toList <+: second.toList ++ rest' := ⟨rest, same⟩
  have sameWord : first = second := by
    rcases List.prefix_or_prefix_of_prefix begins (List.prefix_append second.toList rest') with before | after
    · exact apart first known second known' before
    · exact (apart second known' first known after).symm
  subst sameWord
  exact ⟨rfl, List.append_cancel_left same⟩

/-- What stands in the text of a type after its keyword. -/
def details : Ty → List Char
  | function params returns => (textList params).toList ++ ']' :: (" => ".toList ++ returns.text.toList ++ [')'])
  | _ => []

theorem toList_text (ty : Ty) : ty.text.toList = ty.keyword.toList ++ ty.details := by
  cases ty <;> simp [text, keyword, details]

theorem keyword_cancel {a b : Ty} {rest rest' : List Char}
    (same : a.text.toList ++ rest = b.text.toList ++ rest') :
    a.keyword = b.keyword ∧ a.details ++ rest = b.details ++ rest' := by
  rw [toList_text, toList_text, List.append_assoc, List.append_assoc] at same
  exact eq_of_mem_keywords a.keyword_mem b.keyword_mem same

/-- Only the keyword of functions with a signature leaves anything open. -/
theorem eq_of_keyword {a b : Ty} (plain : a.signature? = none) (same : a.keyword = b.keyword) : a = b := by
  cases a <;> cases b <;> simp_all [keyword, signature?]

theorem exists_eq_function {ty : Ty} (same : ".function([" = ty.keyword) :
    ∃ params returns, ty = function params returns := by
  cases ty <;> simp_all [keyword]

theorem exists_toList_text (ty : Ty) : ∃ cs, ty.text.toList = '.' :: cs := by
  cases ty <;> simp [text]

/-! ### Texts with anything after them -/

-- A parameter is followed by the text of all that comes after it, which may differ too.
mutual

/-- The text of a type ends where it does, whatever follows. -/
theorem text_cancel : (a b : Ty) → ∀ {rest rest' : List Char},
    a.text.toList ++ rest = b.text.toList ++ rest' → a = b ∧ rest = rest'
  | function ps r, b, rest, rest', same => by
    obtain ⟨word, more⟩ := keyword_cancel same
    obtain ⟨qs, s, rfl⟩ := exists_eq_function word
    simp only [details, List.append_assoc, List.cons_append] at more
    obtain ⟨rfl, returns⟩ := textList_cancel ps qs more
    obtain ⟨rfl, closed⟩ := text_cancel r s (List.append_cancel_left returns)
    exact ⟨rfl, List.tail_eq_of_cons_eq closed⟩
  | anything, b, rest, rest', same | undefined, b, rest, rest', same | integer, b, rest, rest', same
  | float, b, rest, rest', same | boolean, b, rest, rest', same | string, b, rest, rest', same
  | anyFunction, b, rest, rest', same => by
    obtain ⟨word, more⟩ := keyword_cancel same
    obtain rfl := eq_of_keyword rfl word
    exact ⟨rfl, more⟩

/-- The parameters end at the bracket that closes them. -/
theorem textList_cancel : (as bs : List Ty) → ∀ {rest rest' : List Char},
    (textList as).toList ++ ']' :: rest = (textList bs).toList ++ ']' :: rest' → as = bs ∧ rest = rest'
  | [], [], _, _, same => ⟨rfl, List.tail_eq_of_cons_eq same⟩
  | [], ty :: _, _, _, same | ty :: _, [], _, _, same => by
    obtain ⟨cs, dotted⟩ := ty.exists_toList_text
    simp [textList, dotted] at same
  | a :: as, b :: bs, _, _, same => by
    simp only [textList, String.toList_append, List.append_assoc] at same
    obtain ⟨rfl, more⟩ := text_cancel a b same
    obtain ⟨rfl, rest⟩ := textTail_cancel as bs more
    exact ⟨rfl, rest⟩

theorem textTail_cancel : (as bs : List Ty) → ∀ {rest rest' : List Char},
    (textTail as).toList ++ ']' :: rest = (textTail bs).toList ++ ']' :: rest' → as = bs ∧ rest = rest'
  | [], [], _, _, same => ⟨rfl, List.tail_eq_of_cons_eq same⟩
  | [], _ :: _, _, _, same | _ :: _, [], _, _, same => by simp [textTail] at same
  | a :: as, b :: bs, _, _, same => by
    simp only [textTail, String.toList_append, List.append_assoc] at same
    obtain ⟨rfl, more⟩ := text_cancel a b (List.append_cancel_left same)
    obtain ⟨rfl, rest⟩ := textTail_cancel as bs more
    exact ⟨rfl, rest⟩

end

theorem text_isPrefix_iff {a b : Ty} : a.text.toList <+: b.text.toList ↔ a = b := by
  constructor
  · rintro ⟨rest, same⟩
    have whole : a.text.toList ++ rest = b.text.toList ++ [] := by rw [same, List.append_nil]
    exact (text_cancel a b whole).1
  · rintro rfl
    exact List.prefix_rfl

theorem text_inj {a b : Ty} : a.text = b.text ↔ a = b := by
  constructor
  · intro same
    exact text_isPrefix_iff.mp (same ▸ List.prefix_rfl)
  · exact congrArg text

/-- The text of a type is that of no other type and begins that of no other type. So functions of which nothing
is known, without parameters and with some, be they functions themselves, are told apart. -/
theorem texts_are_unambiguous :
    (∀ a b : Ty, a.text.toList <+: b.text.toList ↔ a = b) ∧
    (∀ a b : Ty, a.text = b.text ↔ a = b) ∧
    (∀ (r s p : Ty) (ps : List Ty), ([anyFunction, function [] r, function (p :: ps) s].map text).Nodup) := by
  refine ⟨fun a b => text_isPrefix_iff, fun a b => text_inj, fun r s p ps => ?_⟩
  simp [text_inj]

example : [anyFunction, function [] integer, function [anyFunction] integer].map text =
    [".function()", ".function([] => .integer)", ".function([.function()] => .integer)"] := by decide

end Ty

end EngineFuzz
