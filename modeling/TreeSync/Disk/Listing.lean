import TreeSync.Disk.Tree

namespace TreeSync

/-! Listing a tree as its owner sees it. -/

namespace Attributes

def readable (attributes : Attributes) : Bool :=
  attributes.permissions &&& 0o400 ≠ 0

def searchable (attributes : Attributes) : Bool :=
  attributes.permissions &&& 0o100 ≠ 0

end Attributes

namespace Tree

/-- Whether the owner can list a node with all that it holds directly: a file has to
be readable, a directory too, and one that is not empty has to let the owner pass. -/
def nodeLegible (tree : Tree) (location : Location) : Node → Bool
  | .directory attributes =>
      attributes.readable && ((tree.namesIn location).isEmpty || attributes.searchable)
  | .file attributes _ => attributes.readable
  | .link _ | .fifo _ => true

/-- Whether the owner can list everything beneath a location. -/
def legible (tree : Tree) (location : Location) : Bool :=
  (tree.beneath location).all fun found => tree.nodeLegible found.1 found.2

end Tree

end TreeSync
