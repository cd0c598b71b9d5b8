/-! A queue between two parties. Letters are taken in the order they were posted. Once the receiving
party has gone the mailbox is closed: it holds nothing and takes nothing. -/

namespace TerrainStream

structure Mailbox (α : Type) where
  letters : Array α
  isOpen : Bool
deriving Inhabited

namespace Mailbox

variable {α : Type}

def empty : Mailbox α := ⟨#[], true⟩

def closed : Mailbox α := ⟨#[], false⟩

def size (m : Mailbox α) : Nat := m.letters.size

def isEmpty (m : Mailbox α) : Bool := m.letters.isEmpty

/-- Post a letter; a closed mailbox stays as it is. Whether the letter was taken is whether the
mailbox is open. -/
def post (m : Mailbox α) (letter : α) : Mailbox α :=
  if m.isOpen then { m with letters := m.letters.push letter } else m

def firsts (m : Mailbox α) (most : Nat) : List α := m.letters.toList.take most

def rest (m : Mailbox α) (most : Nat) : Mailbox α := { m with letters := m.letters.extract most }

def emptied (m : Mailbox α) : Mailbox α := { m with letters := #[] }

end Mailbox

end TerrainStream
