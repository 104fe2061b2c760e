/-!
# Closed vocabularies

A vocabulary gives every value of a finite type a name. Several words may stand for one value, and
the name of a value reads back to it. A `Key` is any word at all: a value of the vocabulary when the
word belongs to it, and the word itself when it does not.
-/
namespace Flowgraph

class Vocabulary (α : Type) where
  /-- The accepted words, in the order in which they are listed to a reader. -/
  words : List (String × α)
  name : α → String
  lookup_name (a : α) : words.lookup (name a) = some a

namespace Vocabulary
variable {α : Type} [Vocabulary α]

def ofName? (word : String) : Option α := (words : List (String × α)).lookup word

@[simp] theorem ofName?_name (a : α) : ofName? (name a) = some a := lookup_name a

theorem name_injective {a b : α} (h : name a = name b) : a = b := by
  have : (ofName? (name a) : Option α) = ofName? (name b) := by rw [h]
  simpa using this

end Vocabulary

/-- A word, kept verbatim when it is outside the vocabulary. -/
inductive Key (α : Type) [Vocabulary α] where
  | known (value : α)
  | unknown (word : String) (foreign : (Vocabulary.ofName? word : Option α) = none)
  deriving DecidableEq

namespace Key
variable {α : Type} [Vocabulary α]

def ofWord (word : String) : Key α :=
  match h : (Vocabulary.ofName? word : Option α) with
  | some a => .known a
  | none => .unknown word h

def word : Key α → String
  | known a => Vocabulary.name a
  | unknown w _ => w

def value? : Key α → Option α
  | known a => some a
  | unknown _ _ => none

def isKnown (k : Key α) : Bool := k.value?.isSome

@[simp] theorem ofWord_word (k : Key α) : ofWord k.word = k := by
  cases k with
  | known a =>
    simp only [word, ofWord]
    split
    · next b h => rw [Vocabulary.ofName?_name] at h; cases h; rfl
    · next h => rw [Vocabulary.ofName?_name] at h; cases h
  | unknown w h => simp only [word, ofWord]; split <;> simp_all

theorem word_injective {k l : Key α} (h : k.word = l.word) : k = l := by
  rw [← ofWord_word k, h, ofWord_word]

end Key
end Flowgraph
