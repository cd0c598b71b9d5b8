import Mathlib.Data.List.Basic
import TerrainStream.Exchange.Mailbox

/-! A mailbox as the list of its letters. -/

namespace TerrainStream.Mailbox

variable {α : Type}

/-- A mailbox is its letters in turn, and whether it is open. -/
theorem ext_letters {box other : Mailbox α} (letters : box.letters.toList = other.letters.toList)
    (ready : box.isOpen = other.isOpen) : box = other := by
  cases box
  cases other
  rw [Mailbox.mk.injEq]
  exact ⟨Array.toList_inj.mp letters, ready⟩

theorem post_isOpen (box : Mailbox α) (letter : α) : (box.post letter).isOpen = box.isOpen := by
  unfold post
  split <;> rfl

theorem post_letters {box : Mailbox α} (ready : box.isOpen = true) (letter : α) :
    (box.post letter).letters.toList = box.letters.toList ++ [letter] := by
  simp [post, ready]

theorem rest_letters (box : Mailbox α) (most : Nat) : (box.rest most).letters.toList = box.letters.toList.drop most := by
  rw [rest, Array.toList_extract, List.extract]
  exact List.take_of_length_le (by simp)

/-- Taking the first letters out splits a mailbox in two. -/
theorem firsts_rest (box : Mailbox α) (most : Nat) :
    box.firsts most ++ (box.rest most).letters.toList = box.letters.toList := by
  rw [rest_letters, firsts, List.take_append_drop]

theorem rest_zero (box : Mailbox α) : box.rest 0 = box := ext_letters (box.rest_letters 0) rfl

theorem rest_rest (box : Mailbox α) (first second : Nat) : (box.rest first).rest second = box.rest (first + second) := by
  refine ext_letters ?_ rfl
  rw [rest_letters, rest_letters, rest_letters, List.drop_drop]

theorem firsts_add (box : Mailbox α) (first second : Nat) :
    box.firsts (first + second) = box.firsts first ++ (box.rest first).firsts second := by
  rw [firsts, firsts, firsts, rest_letters, List.take_add]

/-- A bound that the length does not exceed makes no difference. -/
theorem firsts_beyond {box : Mailbox α} {most : Nat} (beyond : box.size ≤ most) :
    box.firsts most = box.letters.toList := List.take_of_length_le beyond

theorem rest_beyond {box : Mailbox α} {most : Nat} (beyond : box.size ≤ most) : box.rest most = box.emptied := by
  refine ext_letters ?_ rfl
  rw [rest_letters]
  exact List.drop_eq_nil_of_le beyond

theorem rest_all (box : Mailbox α) : (box.rest box.size).letters = #[] := by
  rw [rest_beyond (Nat.le_refl _), emptied]

theorem firsts_all (box : Mailbox α) : box.firsts box.size = box.letters.toList := firsts_beyond (Nat.le_refl _)

end TerrainStream.Mailbox
