import TreeSync.Proofs.Disk.Replay

namespace TreeSync

/-! Trees that differ in times at most. -/

def Node.timeless (node : Node) : Node :=
  node.setTime 0

/-- Whether two trees show the same but for times. If times are kept, only those of
directories may differ, and in a place that is dated no time does. -/
structure Tree.Agrees (kept : Prop) (dated : Location → Prop) (first second : Tree) : Prop where
  timeless : ∀ place,
    (first.get? place).map Node.timeless = (second.get? place).map Node.timeless
  sight : kept → ∀ place, first.sight place = second.sight place
  dated : ∀ place, dated place → first.get? place = second.get? place

theorem Tree.timeless_of_sight {first second : Tree} {place : Location}
    (same : first.sight place = second.sight place) :
    (first.get? place).map Node.timeless = (second.get? place).map Node.timeless := by
  have through (tree : Tree) :
      (tree.get? place).map Node.timeless = (tree.sight place).map Node.timeless := by
    unfold sight
    rw [Option.map_map]
    congr 1
    funext node
    cases node <;> rfl
  rw [through, through, same]

namespace Tree.Agrees

variable {kept : Prop} {dated : Location → Prop} {first second : Tree} {location : Location}

theorem refl (tree : Tree) : tree.Agrees kept dated tree where
  timeless _ := rfl
  sight _ _ := rfl
  dated _ _ := rfl

theorem mono {fewer : Location → Prop} (agrees : first.Agrees kept dated second)
    (less : ∀ place, fewer place → dated place) : first.Agrees kept fewer second :=
  { agrees with dated := fun place fine => agrees.dated place (less place fine) }

theorem update {change : Node → Node} (agrees : first.Agrees kept dated second)
    (timeless : ∀ node : Node, (change node.timeless).timeless = (change node).timeless)
    (sight : ∀ node : Node, (change node.unstamped).unstamped = (change node).unstamped) :
    (first.update location change).Agrees kept dated (second.update location change) where
  timeless place := by
    have through (tree : Tree) : ((tree.get? place).map change).map Node.timeless =
        ((tree.get? place).map Node.timeless).map fun node => (change node).timeless := by
      rw [Option.map_map, Option.map_map]
      exact congrArg (Option.map · (tree.get? place)) (funext fun node => (timeless node).symm)
    rw [get?_update, get?_update]
    split
    · rw [through, through, agrees.timeless]
    · exact agrees.timeless place
  sight times place := by
    have through (tree : Tree) : ((tree.get? place).map change).map Node.unstamped =
        (tree.sight place).map fun node => (change node).unstamped := by
      unfold Tree.sight
      rw [Option.map_map, Option.map_map]
      exact congrArg (Option.map · (tree.get? place)) (funext fun node => (sight node).symm)
    unfold Tree.sight
    rw [get?_update, get?_update]
    split
    · rw [through, through, agrees.sight times]
    · exact agrees.sight times place
  dated place fine := by
    rw [get?_update, get?_update, agrees.dated place fine]

theorem setPermissions (agrees : first.Agrees kept dated second) (permissions : UInt32) :
    (first.update location (.setPermissions permissions)).Agrees kept dated
      (second.update location (.setPermissions permissions)) :=
  agrees.update (fun node => by cases node <;> rfl) fun node => by cases node <;> rfl

/-- A time that is set in both trees is the same in both. -/
theorem setTime (agrees : first.Agrees kept dated second) (mtime : Int64) :
    (first.update location (.setTime mtime)).Agrees kept
      (fun place => dated place ∨ place = location) (second.update location (.setTime mtime)) := by
  have updated : (first.update location (.setTime mtime)).Agrees kept dated
      (second.update location (.setTime mtime)) :=
    agrees.update (fun node => by cases node <;> rfl) fun node => by cases node <;> rfl
  refine { updated with dated := fun place fine => ?_ }
  rcases fine with fine | rfl
  · exact updated.dated place fine
  · have through (tree : Tree) : (tree.get? place).map (Node.setTime mtime) =
        ((tree.get? place).map Node.timeless).map (Node.setTime mtime) := by
      rw [Option.map_map]
      congr 1
      funext node
      cases node <;> rfl
    rw [get?_update, get?_update, if_pos rfl, if_pos rfl, through, through, agrees.timeless]

end Tree.Agrees

end TreeSync
