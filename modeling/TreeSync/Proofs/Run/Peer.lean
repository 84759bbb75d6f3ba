import TreeSync.Proofs.Message.Conversing
import TreeSync.Proofs.Message.Parsing
import TreeSync.Proofs.Transfer.Asking
import TreeSync.Proofs.Transfer.Replies

namespace TreeSync

/-! Peers that answer what they are asked.

An honest peer sends its list, then a reply to each request in the order of the requests, and
once it is told that no more will come the end of the content and all that it still has to
send. When and in which pieces these bytes arrive is left open.
-/

open TreeSync.Speech

structure Peer where
  /-- The file list, and the word that all of the tree could be read. -/
  list : Bytes
  /-- The reply to the request for an index. -/
  answer : Nat → Reply
  /-- The acknowledgement, and the totals for a client. -/
  farewell : Bytes

/-- Requests in the order of a list, each for a regular file. -/
structure Requests (files : List ListEntry) (requests : List Nat) : Prop where
  rising : requests.Pairwise (· < ·)
  regular : ∀ index ∈ requests, index < 0x80000000 ∧
    ∃ entry, files[index]? = some entry ∧ entry.isRegular = true

namespace Peer

variable (peer : Peer)

def replies (requests : List Nat) : List Reply :=
  requests.map peer.answer

/-- What follows the replies once so many end marks were heard. -/
def closing (marks : Nat) : Bytes :=
  if marks = 0 then [] else Wire.intBytes Wire.doneIndex ++ peer.farewell

/-- All that is sent in answer to these requests and so many end marks. -/
def stream (requests : List Nat) (marks : Nat) : Bytes :=
  peer.list ++ ((peer.replies requests).flatMap Reply.bytes ++ peer.closing marks)

/-- Whether the peer offers just these files, and would reply to a request for any of them. -/
structure Offers (files : List ListEntry) : Prop where
  list : ∃ after, FileList.readWhole (Inflow.plainly peer.list) = .ok (files, 0) after ∧
    after.source.pending = []
  index : ∀ index entry, files[index]? = some entry → entry.isRegular = true →
    (peer.answer index).index = index
  formed : ∀ index entry, files[index]? = some entry → entry.isRegular = true →
    (peer.answer index).WellFormed

/-- Whether on a connection nothing comes in but what the peer sends in answer to what it
was told. -/
def Honest {κ : Type} [Connection κ] (options : Options) (files : List ListEntry)
    (first : Inflow κ) : Prop :=
  ∀ {taken said : Bytes} {now : Inflow κ} {requests : List Nat} {marks : Nat},
    first.Converses taken said now → Requests files requests → marks ≤ 3 →
      said = bytes (word options requests marks) → taken <+: peer.stream requests marks

variable {peer}

theorem closing_closes (marks : Nat) : Reply.Closing (peer.closing marks) := by
  unfold closing
  split
  · exact .inl rfl
  · exact .inr ⟨_, rfl⟩

/-- Whatever spells a list and ends with the peer's list is the peer's list. -/
theorem Offers.list_unique {files read : List ListEntry} {integrity : Int32} {taken : Bytes}
    (offers : peer.Offers files) (spelled : Spells FileList.readWhole (read, integrity) taken)
    (front : taken <+: peer.list) : read = files ∧ integrity = 0 ∧ taken = peer.list := by
  obtain ⟨rest, whole⟩ := front
  obtain ⟨after, ran, drained⟩ := offers.list
  have ahead : (Inflow.plainly peer.list).Plainly (taken ++ rest) := whole ▸ Inflow.plainly_of _
  obtain ⟨after', ran', left⟩ := spelled _ rest ahead
  rw [ran] at ran'
  cases ran'
  have empty : rest = [] := left.pending.symm.trans drained
  rw [empty, List.append_nil] at whole
  exact ⟨rfl, rfl, whole⟩

theorem Offers.replies_formed {files : List ListEntry} {requests : List Nat}
    (offers : peer.Offers files) (asked : Requests files requests) :
    ∀ reply ∈ peer.replies requests, reply.WellFormed := by
  intro reply listed
  obtain ⟨index, among, rfl⟩ := List.mem_map.mp listed
  obtain ⟨_, entry, found, regular⟩ := asked.regular index among
  exact offers.formed index entry found regular

theorem Offers.index_requested {files : List ListEntry} {requests : List Nat} {index : Nat}
    (offers : peer.Offers files) (asked : Requests files requests) (among : index ∈ requests) :
    (peer.answer index).index = index := by
  obtain ⟨_, entry, found, regular⟩ := asked.regular index among
  exact offers.index index entry found regular

theorem Offers.replies_index {files : List ListEntry} {requests : List Nat}
    (offers : peer.Offers files) (asked : Requests files requests) :
    (peer.replies requests).map Reply.index = requests := by
  unfold replies
  rw [List.map_map]
  exact (List.map_congr_left fun _ among => offers.index_requested asked among).trans (List.map_id _)

end Peer

theorem FileRequester.Said.requests {κ : Type} {sent : κ → Bytes → Prop} {options : Options}
    {task : Task} {asked : List Nat} {now : Uploading FileRequester κ}
    (known : Said sent options task asked now) : Requests task.files asked :=
  ⟨known.rising, known.regular⟩

end TreeSync
