import Flowgraph.Json.Codec
import Flowgraph.Proofs.Json.Printer
/-!
# What codecs give back

A codec gives a value back as another if it reads the other from what it writes of the first. The
two are the same unless reading brings the value into shape. What holds of documents here holds of
texts, because the text of what was written is read as that document.
-/
namespace Flowgraph.Json

theorem exists_of_map_eq_ok {ε α β : Type} {x : Except ε α} {f : α → β} {b : β}
    (h : x.map f = .ok b) : ∃ a, x = .ok a ∧ f a = b := by
  cases x with
  | error e => cases h
  | ok a => cases h; exact ⟨a, rfl, rfl⟩

theorem exists_of_bind_eq_ok {ε α β : Type} {x : Except ε α} {f : α → Except ε β} {b : β}
    (h : x.bind f = .ok b) : ∃ a, x = .ok a ∧ f a = .ok b := by
  cases x with
  | error e => cases h
  | ok a => exact ⟨a, rfl, h⟩

namespace Codec
variable {α β : Type} {c : Codec α}

structure GivesBack (c : Codec α) (a b : α) : Prop where
  writable : (c.write a).Writable
  read : c.read (c.write a) = .ok b

/-- Reads a text and prints what was read. -/
def reprint (c : Codec α) (text : String) : Except Fault String := (c.parse text).map c.print

/-- Some document is read as the value. -/
def Reads (c : Codec α) (a : α) : Prop := ∃ d, c.read d = .ok a

theorem parse_of_readFrom {d : Doc} {text : String} (h : d.ReadFrom text.toList) :
    c.parse text = c.read d := by
  rw [parse, h.parse]
  cases hd : c.read d <;> simp only [hd, if_true]

theorem parse_of_speltAs {d : Doc} {text : String} (h : d.SpeltAs text) :
    c.parse text = c.read d := parse_of_readFrom (Doc.readFrom_of_value h)

theorem parse_eq_ok {text : String} {a : α} :
    c.parse text = .ok a ↔ (Doc.parse text).2 = true ∧ c.read (Doc.parse text).1 = .ok a := by
  rw [parse]
  cases hd : c.read (Doc.parse text).1 with
  | error f => simp [hd]
  | ok b => cases hw : (Doc.parse text).2 <;> simp [hd, hw]

theorem GivesBack.parse_print {a b : α} (h : c.GivesBack a b) : c.parse (c.print a) = .ok b := by
  rw [print, parse_of_speltAs (Doc.speltAs_render h.writable), h.read]

theorem GivesBack.unique {a a' b b' : α} (h : c.GivesBack a b) (h' : c.GivesBack a' b')
    (hwrite : c.write a = c.write a') : b = b' := by
  have hread := h.read
  rw [hwrite, h'.read] at hread
  exact (Except.ok.inj hread).symm

/-- A fault of the content is one of the document, and the rest of the text does not matter to it. -/
theorem parse_eq_error {text : String} {f : Fault} (content : f ≠ .malformed) :
    c.parse text = .error f ↔ c.read (Doc.parse text).1 = .error f := by
  rw [parse]
  cases hd : c.read (Doc.parse text).1 with
  | error e => simp [hd]
  | ok b => cases hw : (Doc.parse text).2 <;> simp [hd, hw, content.symm]

theorem reads_of_parse {text : String} {a : α} (h : c.parse text = .ok a) : c.Reads a :=
  ⟨_, (parse_eq_ok.mp h).2⟩

theorem text_givesBack (s : String) : text.GivesBack s s := ⟨.string s, rfl⟩

theorem bool_givesBack (b : Bool) : bool.GivesBack b b := ⟨.bool b, rfl⟩

theorem word_givesBack [Vocabulary α] (a : α) : word.GivesBack a a where
  writable := .string _
  read := by
    simp only [word, Doc.string, ofWord, Vocabulary.ofName?_name]

theorem integer_givesBack {expected : String} {ofInt? : Int → Option α} {toInt : α → Int} {a b : α}
    (low : -9223372036854775808 ≤ toInt a) (high : toInt a < 18446744073709551616)
    (h : ofInt? (toInt a) = some b) : (integer expected ofInt? toInt).GivesBack a b where
  writable := .int _
  read := by
    simp only [integer, Doc.int, seenNumber_toString low high, h]

theorem natBelow_givesBack {expected : String} {bound n : Nat} (h : n < bound)
    (fits : bound ≤ 18446744073709551616) : (natBelow expected bound).GivesBack n n := by
  apply integer_givesBack
  · omega
  · omega
  · simp [h]

theorem GivesBack.map {make : α → β} {of : β → α} {a : α} {b b' : β} (h : c.GivesBack (of b) a)
    (hmake : make a = b') : (c.map make of).GivesBack b b' where
  writable := h.writable
  read := by
    rw [Codec.map]
    simp only [h.read, Except.map, hmake]

theorem reads_of_map {make : α → β} {of : β → α} {b : β} (h : (c.map make of).Reads b) :
    ∃ a, c.Reads a ∧ make a = b := by
  obtain ⟨d, hd⟩ := h
  obtain ⟨a, ha, rfl⟩ := exists_of_map_eq_ok hd
  exact ⟨a, ⟨d, ha⟩, rfl⟩

theorem readItems_cons (c : Codec α) (d : Doc) (ds : List Doc) :
    c.readItems (d :: ds) = (c.read d).bind fun a => (c.readItems ds).map (a :: ·) := by
  rw [readItems]
  cases c.read d <;> rfl

theorem read_array (c : Codec α) (ds : List Doc) (ending : Ending) :
    c.list.read (.array ds ending) =
      (c.readItems ds).bind fun as => if ending = .closed then .ok as else .error .malformed := by
  simp only [list]
  cases c.readItems ds <;> rfl

theorem readItems_map_write {as : List α} {f : α → α} (h : ∀ a ∈ as, c.GivesBack a (f a)) :
    c.readItems (as.map c.write) = .ok (as.map f) := by
  induction as with
  | nil => rfl
  | cons a as ih =>
    rw [List.map_cons, readItems_cons, (h a (by simp)).read, ih fun b hb => h b (by simp [hb])]
    rfl

theorem list_givesBack {as : List α} {f : α → α} (h : ∀ a ∈ as, c.GivesBack a (f a)) :
    c.list.GivesBack as (as.map f) where
  writable := by
    refine .list fun d hd => ?_
    obtain ⟨a, ha, rfl⟩ := List.mem_map.mp hd
    exact (h a ha).writable
  read := by
    simp only [list, Doc.list, readItems_map_write h, if_true]

theorem list_givesBack_self {as : List α} (h : ∀ a ∈ as, c.GivesBack a a) :
    c.list.GivesBack as as := by
  have : c.list.GivesBack as (as.map id) := list_givesBack h
  rwa [List.map_id] at this

theorem reads_of_mem_readItems {ds : List Doc} {as : List α} (h : c.readItems ds = .ok as) :
    ∀ a ∈ as, c.Reads a := by
  induction ds generalizing as with
  | nil =>
    cases h
    exact List.forall_mem_nil _
  | cons d ds ih =>
    rw [readItems_cons] at h
    obtain ⟨a, ha, h⟩ := exists_of_bind_eq_ok h
    obtain ⟨bs, has, rfl⟩ := exists_of_map_eq_ok h
    exact List.forall_mem_cons.mpr ⟨⟨d, ha⟩, ih has⟩

theorem reads_of_list {as : List α} (h : c.list.Reads as) : ∀ a ∈ as, c.Reads a := by
  obtain ⟨d, hd⟩ := h
  cases d with
  | array ds ending =>
    rw [read_array] at hd
    obtain ⟨bs, has, hd⟩ := exists_of_bind_eq_ok hd
    split at hd
    · cases hd
      exact reads_of_mem_readItems has
    · cases hd
  | _ => cases hd

end Codec
end Flowgraph.Json
