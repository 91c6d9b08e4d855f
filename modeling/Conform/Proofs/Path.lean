import Conform.Proofs.Trace
import Mathlib.Data.List.Basic

/-!
# Paths of messages

A walk does nothing with its path but put steps behind it. `Schema.messages_append` says that from a
longer path it leaves the same messages, with the same part put before all their paths. What a
message has behind the path of its walk is therefore its path in the walk from the empty one.

The steps of a path are made of names, of numbers and of a few characters of their own. A character
that is none of these and that no name has (`Text.Lacks`) is then in no path.
-/

namespace Conform

/-! ## Characters that a text lacks -/

namespace Text

/-- The character is not in the text. -/
def Lacks (c : Char) (text : String) : Prop := c ∉ text.toList

instance (c : Char) (text : String) : Decidable (Lacks c text) :=
  inferInstanceAs (Decidable (c ∉ text.toList))

/-- Texts put together lack a character exactly if each of them does. -/
theorem lacks_append {c : Char} {first second : String} :
    Lacks c (first ++ second) ↔ Lacks c first ∧ Lacks c second := by
  simp [Lacks, not_or]

/-- Texts that lack a character lack it together. -/
theorem Lacks.append {c : Char} {first second : String} (h : Lacks c first) (h' : Lacks c second) :
    Lacks c (first ++ second) := lacks_append.2 ⟨h, h'⟩

/-- A character that is no decimal digit is not among the digits of a number. -/
theorem notMem_toDigits {c : Char} (hc : c.isDigit = false) (n : Nat) : c ∉ Nat.toDigits 10 n := by
  intro h
  have hdigit : c.isDigit = true := Nat.isDigit_of_mem_toDigits (by decide) (by decide) h
  rw [hc] at hdigit
  cases hdigit

/-- The decimal digits of a number lack every other character. -/
theorem lacks_toString {c : Char} (hc : c.isDigit = false) (n : Nat) : Lacks c (toString n) := by
  rw [Lacks, Nat.toString_eq_repr, Nat.toList_repr]
  exact notMem_toDigits hc n

/-- The path of a property lacks a character that its name and the path before it lack. -/
theorem Lacks.propertyPath {c : Char} {path name : String} (h : Lacks c path)
    (hname : Lacks c name) (hc : Lacks c ".") : Lacks c (propertyPath path name) :=
  (h.append hc).append hname

/-- The path of an item lacks a character that the path before it lacks. -/
theorem Lacks.itemPath {c : Char} {path : String} (h : Lacks c path) (hc : Lacks c "[]")
    (hdigit : c.isDigit = false) (position : Nat) : Lacks c (itemPath path position) := by
  obtain ⟨hopen, hclose⟩ : Lacks c "[" ∧ Lacks c "]" := lacks_append.1 hc
  exact ((h.append hopen).append (lacks_toString hdigit position)).append hclose

/-- The path of a member lacks a character that the path before it lacks. -/
theorem Lacks.memberPath {c : Char} {path : String} (h : Lacks c path)
    (hc : Lacks c "\x7bunion()\x7d") (hdigit : c.isDigit = false) (position : Nat) :
    Lacks c (memberPath path position) := by
  obtain ⟨hopen, hclose⟩ : Lacks c "\x7bunion(" ∧ Lacks c ")\x7d" := lacks_append.1 hc
  exact ((h.append hopen).append (lacks_toString hdigit position)).append hclose

end Text

/-! ## Paths -/

/-- The message with a part put before its path. -/
def Message.under (base : String) (m : Message) : Message := ⟨base ++ m.path, m.error⟩

/-- A part before a path is before the path of its property. -/
theorem propertyPath_append (base path name : String) :
    propertyPath (base ++ path) name = base ++ propertyPath path name := by
  simp [propertyPath, String.append_assoc]

/-- A part before a path is before the path of its item. -/
theorem itemPath_append (base path : String) (position : Nat) :
    itemPath (base ++ path) position = base ++ itemPath path position := by
  simp [itemPath, String.append_assoc]

/-- A part before a path is before the path of its member. -/
theorem memberPath_append (base path : String) (position : Nat) :
    memberPath (base ++ path) position = base ++ memberPath path position := by
  simp [memberPath, String.append_assoc]

/-- The messages of a verdict stand at its path. -/
theorem Verdict.ownMessages_append (v : Verdict) (base path : String) :
    v.ownMessages (base ++ path) = (v.ownMessages path).map (Message.under base) := by
  unfold ownMessages
  split <;> rfl

namespace Schema

/-- From a longer path, a walk leaves the same messages under it. -/
theorem messages_append (schema : Schema) (input : Value) (base path : String) :
    schema.messages input (base ++ path) =
      (schema.messages input path).map (Message.under base) := by
  induction schema, input using walk_induct generalizing path with
  | settled h => rw [messages_settled h, messages_settled h, Verdict.ownMessages_append]
  | @union first second third m input present ih =>
    rw [messages_union first second third m present, messages_union first second third m present,
      List.map_append, List.map_flatMap, Verdict.ownMessages_append]
    congr 1
    refine List.flatMap_congr fun x hx => ?_
    rw [memberPath_append, ih x.1 (List.fst_mem_of_mem_zipIdx hx)]
  | list h ih =>
    rw [messages_list h, messages_list h, List.map_flatMap]
    refine List.flatMap_congr fun x hx => ?_
    rw [itemPath_append, ih x.1 (List.fst_mem_of_mem_zipIdx hx)]
  | object ih =>
    rw [messages_object, messages_object, List.map_flatMap]
    refine List.flatMap_congr fun p hp => ?_
    rw [propertyPath_append, ih p hp]
  | record ih =>
    rw [messages_record, messages_record, List.map_append, List.map_flatMap, List.map_map]
    congr 1
    · refine List.flatMap_congr fun e he => ?_
      rw [propertyPath_append, ih e he, Verdict.ownMessages_append, List.map_append]
    · refine List.map_congr_left fun key _ => ?_
      rw [propertyPath_append]
      rfl

/-- The messages of a walk are those of the walk from the empty path, under its path. -/
theorem messages_eq_under (schema : Schema) (input : Value) (path : String) :
    schema.messages input path = (schema.messages input "").map (Message.under path) := by
  rw [← messages_append, String.append_empty]

end Schema

end Conform
