namespace TreeSync

/-! How far the uploader has come.

The cursor visits every entry of the list in turn and then, once, the end of the
list. It never moves back.
-/

inductive Position where
  | entry (index : Nat)
  /-- Announce that nothing more is requested. -/
  | endOfList
deriving DecidableEq, Repr

structure Cursor where
  next : Nat
  total : Nat
  next_le : next ≤ total + 1 := by omega
deriving DecidableEq

namespace Cursor

def start (total : Nat) : Cursor where
  next := 0
  total

def position? (cursor : Cursor) : Option Position :=
  if cursor.next < cursor.total then some (.entry cursor.next)
  else if cursor.next = cursor.total then some .endOfList
  else none

def advance (cursor : Cursor) : Cursor :=
  if _left : cursor.next ≤ cursor.total then
    { next := cursor.next + 1, total := cursor.total }
  else cursor

def exhausted (cursor : Cursor) : Bool :=
  cursor.total < cursor.next

def offered (cursor : Cursor) : Nat :=
  min cursor.next cursor.total

theorem position?_eq_none {cursor : Cursor} : cursor.position? = none ↔ cursor.exhausted = true := by
  unfold position? exhausted
  simp only [decide_eq_true_eq]
  split
  · simp
    omega
  · split
    · simp
      omega
    · simp
      omega

theorem next_advance {cursor : Cursor} (left : cursor.exhausted = false) :
    cursor.advance.next = cursor.next + 1 := by
  simp only [exhausted, decide_eq_false_iff_not, Nat.not_lt] at left
  simp [advance, left]

/-- Passes all the positions that are left. -/
def finish (cursor : Cursor) : Cursor where
  next := cursor.total + 1
  total := cursor.total

end Cursor

end TreeSync
