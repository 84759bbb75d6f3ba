import TreeSync.Proofs.Transfer.Accounts

namespace TreeSync

/-! Replies can be told apart by their bytes.

No reply begins with the mark that ends the content, and no piece with the zero that ends a
reply. So a stream of replies is made up of one list of replies only.
-/

namespace Reply

/-- What the downloader accepts: an index that an int can hold, and pieces that are neither
empty nor too long. -/
structure WellFormed (reply : Reply) : Prop where
  small : reply.index < 0x80000000
  pieces : ∀ piece ∈ reply.pieces, piece ≠ [] ∧ piece.length ≤ FileCollector.maxPiece

variable {reply other : Reply} {rest rest' : Bytes}

theorem WellFormed.longer {piece : Bytes} (formed : reply.WellFormed) (more : piece ≠ [])
    (fits : piece.length ≤ FileCollector.maxPiece) : (reply.longer piece).WellFormed where
  small := formed.small
  pieces other listed := by
    rcases List.mem_append.mp listed with earlier | last
    · exact formed.pieces other earlier
    · rw [List.mem_singleton.mp last]
      exact ⟨more, fits⟩

def pieceStream (pieces : List Bytes) : Bytes :=
  pieces.flatMap FileCollector.pieceBytes ++ Wire.intBytes 0

theorem small_of_fits {piece : Bytes} (fits : piece.length ≤ FileCollector.maxPiece) :
    piece.length < 0x80000000 := by
  have limit : FileCollector.maxPiece = 0x1000000 := rfl
  omega

/-- A piece does not begin like the end of a reply. -/
theorem length_ne_zero {piece : Bytes} (more : piece ≠ [])
    (fits : piece.length ≤ FileCollector.maxPiece) : Int32.ofNat piece.length ≠ 0 :=
  Wire.ofNat_length_ne_zero more (small_of_fits fits)

theorem pieceStream_front {pieces pieces' : List Bytes}
    (fine : ∀ piece ∈ pieces, piece ≠ [] ∧ piece.length ≤ FileCollector.maxPiece)
    (fine' : ∀ piece ∈ pieces', piece ≠ [] ∧ piece.length ≤ FileCollector.maxPiece)
    (same : pieceStream pieces ++ rest = pieceStream pieces' ++ rest') :
    pieces = pieces' ∧ rest = rest' := by
  induction pieces generalizing pieces' with
  | nil =>
      cases pieces' with
      | nil => exact ⟨rfl, (Wire.intBytes_front same).2⟩
      | cons piece' more' =>
          obtain ⟨some', fits'⟩ := fine' piece' List.mem_cons_self
          simp only [pieceStream, FileCollector.pieceBytes, List.flatMap_cons, List.flatMap_nil,
            List.nil_append, List.append_assoc] at same
          exact absurd (Wire.intBytes_front same).1.symm (length_ne_zero some' fits')
  | cons piece more ih =>
      obtain ⟨present, fits⟩ := fine piece List.mem_cons_self
      cases pieces' with
      | nil =>
          simp only [pieceStream, FileCollector.pieceBytes, List.flatMap_cons, List.flatMap_nil,
            List.nil_append, List.append_assoc] at same
          exact absurd (Wire.intBytes_front same).1 (length_ne_zero present fits)
      | cons piece' more' =>
          obtain ⟨_, fits'⟩ := fine' piece' List.mem_cons_self
          simp only [pieceStream, FileCollector.pieceBytes, List.flatMap_cons,
            List.append_assoc] at same
          obtain ⟨lengths, tails⟩ := Wire.intBytes_front same
          have equal := Wire.ofNat_inj (small_of_fits fits) (small_of_fits fits') lengths
          obtain ⟨rfl, tails⟩ := List.append_inj tails equal
          have tails : pieceStream more ++ rest = pieceStream more' ++ rest' := by
            simpa [pieceStream] using tails
          obtain ⟨rfl, last⟩ := ih (fun other listed => fine other (List.mem_cons_of_mem _ listed))
            (fun other listed => fine' other (List.mem_cons_of_mem _ listed)) tails
          exact ⟨rfl, last⟩

theorem bytes_eq (reply : Reply) :
    reply.bytes = Wire.intBytes (Int32.ofNat reply.index) ++ (Wire.intBytes 0 ++
      (Wire.intBytes reply.blockLength ++ (Wire.intBytes reply.checksumWidth ++
        (Wire.intBytes reply.remainder ++ pieceStream reply.pieces)))) := by
  simp [bytes, opening, FileCollector.headBytes, pieceStream]

theorem bytes_front (formed : reply.WellFormed) (formed' : other.WellFormed)
    (same : reply.bytes ++ rest = other.bytes ++ rest') : reply = other ∧ rest = rest' := by
  rw [bytes_eq, bytes_eq] at same
  simp only [List.append_assoc] at same
  obtain ⟨index, same⟩ := Wire.intBytes_front same
  obtain ⟨-, same⟩ := Wire.intBytes_front same
  obtain ⟨blockLength, same⟩ := Wire.intBytes_front same
  obtain ⟨checksumWidth, same⟩ := Wire.intBytes_front same
  obtain ⟨remainder, same⟩ := Wire.intBytes_front same
  obtain ⟨pieces, same⟩ := pieceStream_front formed.pieces formed'.pieces same
  have index := Wire.ofNat_inj formed.small formed'.small index
  refine ⟨?_, same⟩
  cases reply
  cases other
  simp_all

theorem bytes_ne_done (formed : reply.WellFormed) :
    reply.bytes ++ rest ≠ Wire.intBytes Wire.doneIndex ++ rest' := by
  intro same
  rw [bytes_eq] at same
  simp only [List.append_assoc] at same
  exact Wire.ofNat_ne_doneIndex formed.small (Wire.intBytes_front same).1

/-- What may follow the replies of a peer: nothing yet, or the end of the content. -/
def Closing (closing : Bytes) : Prop :=
  closing = [] ∨ ∃ farewell, closing = Wire.intBytes Wire.doneIndex ++ farewell

theorem bytes_ne_closing {closing : Bytes} (formed : reply.WellFormed) (ends : Closing closing) :
    reply.bytes ++ rest ≠ closing := by
  intro same
  rcases ends with rfl | ⟨farewell, rfl⟩
  · rw [bytes_eq] at same
    simp [Wire.intBytes, LittleEndian.encode, Wire.intWidth] at same
  · exact bytes_ne_done formed same

/-- Replies that were read are the replies that were sent. -/
theorem leads_of_bytes {read sent : List Reply} {closing : Bytes}
    (formed : ∀ reply ∈ read, reply.WellFormed) (formed' : ∀ reply ∈ sent, reply.WellFormed)
    (ends : Closing closing)
    (same : read.flatMap bytes ++ rest = sent.flatMap bytes ++ closing) :
    ∃ more, sent = read ++ more ∧ rest = more.flatMap bytes ++ closing := by
  induction read generalizing sent with
  | nil => exact ⟨sent, rfl, same⟩
  | cons reply read ih =>
      have fine := formed reply List.mem_cons_self
      cases sent with
      | nil =>
          rw [List.flatMap_cons, List.append_assoc] at same
          exact absurd same (bytes_ne_closing fine ends)
      | cons other sent =>
          rw [List.flatMap_cons, List.flatMap_cons, List.append_assoc, List.append_assoc] at same
          obtain ⟨rfl, tails⟩ := bytes_front fine (formed' other List.mem_cons_self) same
          obtain ⟨more, rfl, left⟩ :=
            ih (fun later listed => formed later (List.mem_cons_of_mem _ listed))
              (fun later listed => formed' later (List.mem_cons_of_mem _ listed)) tails
          exact ⟨more, rfl, left⟩

/-- When the end of the content was read, all replies were. -/
theorem all_of_bytes {read sent : List Reply} {closing : Bytes}
    (formed : ∀ reply ∈ read, reply.WellFormed) (formed' : ∀ reply ∈ sent, reply.WellFormed)
    (ends : Closing closing)
    (same : read.flatMap bytes ++ (Wire.intBytes Wire.doneIndex ++ rest) =
      sent.flatMap bytes ++ closing) :
    sent = read ∧ Wire.intBytes Wire.doneIndex ++ rest = closing := by
  obtain ⟨more, rfl, left⟩ := leads_of_bytes formed formed' ends same
  cases more with
  | nil => exact ⟨List.append_nil _, left⟩
  | cons reply more =>
      have fine := formed' reply (List.mem_append_right _ List.mem_cons_self)
      rw [List.flatMap_cons, List.append_assoc] at left
      exact absurd left.symm (bytes_ne_done fine)

end Reply

end TreeSync
