import LinuxFunctionTest.Library.Chunks
import LinuxFunctionTest.Library.Machine

/-!
# File transfers without a length field

The loops of `libusb-test` that move a file over a bulk endpoint in chunks of 512 bytes. In a
download `rawbulk_server` sends and `libusb_getfile` receives, in an upload `libusb_usb_client` sends
and `usb_file_server` receives. The sender never announces the length, so each receiver takes a chunk
shorter than 512 bytes for the end of the file. The channel is reliable, keeps the order and the chunk
boundaries, and every write completes.
-/

namespace LinuxFunctionTest.LibusbTest

open Chunks

/-- `BUFFER_SIZE`, `BUFFER_LEN` and the length in the calls of `read`. -/
def bufferSize : ℕ := 512

/-- Where a sending loop is: about to read the rest of its file, about to send what it read, or
behind the loop. -/
inductive SendPc where
  | reading (rest : List UInt8)
  | sending (chunk rest : List UInt8)
  | ended
  deriving DecidableEq

namespace SendPc

/-- `read(fd, buffer, 512)`; the loop ends when it returns 0. -/
def read (rest : List UInt8) : SendPc :=
  if rest.take bufferSize = [] then .ended
  else .sending (rest.take bufferSize) (rest.drop bufferSize)

/-- The chunks that a loop without an early exit still sends. -/
def pending : SendPc → List (List UInt8)
  | .reading rest => chunks bufferSize rest
  | .sending chunk rest => chunk :: chunks bufferSize rest
  | .ended => []

/-- A chunk about to be sent is the last one when it is short. -/
def Cut : SendPc → Prop
  | .sending chunk rest => chunk.length < bufferSize → rest = []
  | .reading _ | .ended => True

/-- A bound on the steps of the loop and of the receiver of its chunks. -/
def weight : SendPc → ℕ
  | .reading rest => 4 * rest.length + 1
  | .sending _ rest => 4 * rest.length + 3
  | .ended => 0

end SendPc

section Read

variable (rest : List UInt8)

/-- A read takes the next chunk. -/
theorem pending_read : (SendPc.read rest).pending = (SendPc.reading rest).pending := by
  unfold SendPc.read
  by_cases hrest : rest = []
  · rw [hrest, if_pos List.take_nil]
    exact chunks_nil.symm
  · have htake : rest.take bufferSize ≠ [] := by simp [hrest, bufferSize]
    rw [if_neg htake]
    exact (chunks_of_ne_nil (by decide) hrest).symm

/-- A short read reaches the end of the file. -/
theorem cut_read : (SendPc.read rest).Cut := by
  unfold SendPc.read
  split_ifs with htake
  · trivial
  · intro hshort
    rw [List.length_take] at hshort
    exact List.drop_eq_nil_of_le (by omega)

/-- A read gets on. -/
theorem weight_read : (SendPc.read rest).weight < (SendPc.reading rest).weight := by
  unfold SendPc.read
  split_ifs with htake
  · exact Nat.succ_pos _
  · have hpos : 0 < rest.length := List.length_pos_iff.mpr fun hrest => htake (by rw [hrest]; rfl)
    simp only [SendPc.weight, List.length_drop, bufferSize]
    omega

end Read

section Download

/-- A download: the server's sending loop, the chunks written and not yet transferred, the writes of
the client to the saved file, and whether the client has left its receiving loop. -/
structure Download where
  server : SendPc
  channel : List (List UInt8)
  saved : List (List UInt8)
  clientDone : Bool

/-- A step of either program. -/
inductive DownloadStep where
  | serverRead
  | serverWrite
  | clientTransfer
  deriving DecidableEq

/-- The server with the requested file open, and the client that waits for it. -/
def downloadStart (file : List UInt8) : Download := ⟨.reading file, [], [], false⟩

/-- The sending loop of `rawbulk_server` and the receiving loop of `libusb_getfile`. A transfer waits
for a chunk while the server can still write one, and times out with `transferred` 0 otherwise. -/
def downloadMachine : Machine Download DownloadStep where
  step s
    | .serverRead =>
      match s.server with
      | .reading rest => some { s with server := SendPc.read rest }
      | .sending _ _ | .ended => none
    | .serverWrite =>
      match s.server with
      | .sending chunk rest => some { s with
          channel := s.channel ++ [chunk]
          server := if chunk.length < bufferSize then .ended else .reading rest }
      | .reading _ | .ended => none
    | .clientTransfer =>
      if s.clientDone then none
      else
        match s.channel with
        | chunk :: channel => some { s with
            channel := channel
            saved := s.saved ++ [chunk]
            clientDone := decide (chunk.length < bufferSize) }
        | [] => if s.server = .ended then some { s with clientDone := true } else none

/-- Both loops have ended. -/
def Download.Finished (s : Download) : Prop := s.server = .ended ∧ s.clientDone = true

/-- The saved file is the served one, and nothing of it is left in the channel. -/
structure Downloaded (file : List UInt8) (s : Download) : Prop where
  saved : s.saved.flatten = file
  channel : s.channel = []

/-- The chunks of the file are saved, in the channel or still to be written, in this order; the client
goes on while it gets full chunks, and stops behind a short one or when nothing is to come. -/
structure DownloadInv (file : List UInt8) (s : Download) : Prop where
  stream : s.saved ++ (s.channel ++ s.server.pending) = chunks bufferSize file
  cut : s.server.Cut
  full : s.clientDone = false → Full bufferSize s.saved
  stopped : s.clientDone = true →
    (s.server = .ended ∧ s.channel = []) ∨ Closed bufferSize s.saved

/-- A bound on the remaining steps. -/
def Download.weight (s : Download) : ℕ :=
  s.server.weight + s.channel.length + if s.clientDone then 0 else 1

variable {file : List UInt8} {s t : Download}

/-- Every step keeps the chunks in order and gets on. -/
theorem downloadMachine_step_inv {step : DownloadStep} (hs : DownloadInv file s)
    (ht : downloadMachine.step s step = some t) : DownloadInv file t ∧ t.weight < s.weight := by
  obtain ⟨server, channel, saved, clientDone⟩ := s
  cases step with
  | serverRead =>
    cases server with
    | reading rest =>
      obtain rfl := Option.some.inj ht
      refine ⟨⟨?_, cut_read rest, hs.full, fun hdone => ?_⟩, ?_⟩
      · simpa only [pending_read] using hs.stream
      · refine (hs.stopped hdone).imp (fun hended => ?_) id
        simp at hended
      · have hlt := weight_read rest
        simp only [Download.weight]
        omega
    | sending chunk rest => simp [downloadMachine] at ht
    | ended => simp [downloadMachine] at ht
  | serverWrite =>
    cases server with
    | reading rest => simp [downloadMachine] at ht
    | sending chunk rest =>
      obtain rfl := Option.some.inj ht
      have hcut : chunk.length < bufferSize → rest = [] := hs.cut
      refine ⟨⟨?_, ?_, hs.full, fun hdone => Or.inr ?_⟩, ?_⟩
      · have hstream := hs.stream
        simp only at hstream ⊢
        rw [← hstream]
        split_ifs with hshort
        · simp [SendPc.pending, hcut hshort]
        · simp [SendPc.pending]
      · simp only
        split_ifs <;> trivial
      · refine (hs.stopped hdone).resolve_left fun hended => ?_
        simp at hended
      · simp only [Download.weight, List.length_append, List.length_singleton]
        split_ifs <;> simp only [SendPc.weight] <;> omega
    | ended => simp [downloadMachine] at ht
  | clientTransfer =>
    cases clientDone with
    | true => simp [downloadMachine] at ht
    | false =>
      have hfull : Full bufferSize saved := hs.full rfl
      cases channel with
      | nil =>
        simp only [downloadMachine, Bool.false_eq_true, if_false] at ht
        split_ifs at ht with hended
        obtain rfl := Option.some.inj ht
        refine ⟨⟨hs.stream, hs.cut, by simp, fun _ => Or.inl ⟨hended, rfl⟩⟩, ?_⟩
        simp [Download.weight]
      | cons chunk channel =>
        obtain rfl := Option.some.inj ht
        have hmem : chunk ∈ chunks bufferSize file := by
          rw [← hs.stream]
          simp
        have htaken := hfull.take (length_le_of_mem_chunks (by decide) hmem)
        refine ⟨⟨?_, hs.cut, fun hmore => ?_, fun hdone => Or.inr ?_⟩, ?_⟩
        · rw [← hs.stream]
          simp
        · rwa [if_neg (by simpa using hmore)] at htaken
        · rwa [if_pos (by simpa using hdone)] at htaken
        · have hclient : (if decide (chunk.length < bufferSize) = true then 0 else 1) ≤ 1 := by
            split_ifs <;> decide
          simp only [Download.weight, List.length_cons, Bool.false_eq_true, if_false]
          omega

/-- At the start the whole file is still to be written. -/
theorem downloadStart_inv (file : List UInt8) : DownloadInv file (downloadStart file) where
  stream := rfl
  cut := trivial
  full := fun _ c hc => absurd hc List.not_mem_nil
  stopped := by simp [downloadStart]

/-- When both loops have ended the client has saved every chunk. -/
theorem DownloadInv.downloaded (hs : DownloadInv file s) (hdone : s.Finished) : Downloaded file s := by
  have hstream := hs.stream
  rw [hdone.1, SendPc.pending, List.append_nil] at hstream
  have hchannel : s.channel = [] := by
    rcases hs.stopped hdone.2 with hended | hclosed
    · exact hended.2
    · have hmessage := message_chunks (by decide) file (n := bufferSize)
      rw [← hstream, hclosed.message_append] at hmessage
      simpa using hmessage
  rw [hchannel, List.append_nil] at hstream
  exact ⟨by rw [hstream, flatten_chunks (by decide)], hchannel⟩

/-- While a loop has not ended some program can go on. -/
theorem download_progress (s : Download) :
    s.Finished ∨ ∃ step t, downloadMachine.step s step = some t := by
  obtain ⟨server, channel, saved, clientDone⟩ := s
  cases server with
  | reading rest => exact Or.inr ⟨.serverRead, _, rfl⟩
  | sending chunk rest => exact Or.inr ⟨.serverWrite, _, rfl⟩
  | ended =>
    cases clientDone with
    | true => exact Or.inl ⟨rfl, rfl⟩
    | false =>
      refine Or.inr ⟨.clientTransfer, ?_⟩
      cases channel with
      | nil => exact ⟨_, rfl⟩
      | cons chunk channel => exact ⟨_, rfl⟩

/-- Every run of a download, in whatever order the programs step, is bounded by the length of the
file, can go on until both loops have ended, and has then saved the file and emptied the channel. -/
theorem download_framed {steps : List DownloadStep}
    (hrun : downloadMachine.run (downloadStart file) steps = some s) :
    steps.length ≤ 4 * file.length + 2 ∧
      ((∃ step t, downloadMachine.step s step = some t) ∨ s.Finished) ∧
      (s.Finished → Downloaded file s) := by
  have hinv : DownloadInv file s := downloadMachine.run_invariant
    (fun _ _ _ hs ht => (downloadMachine_step_inv hs ht).1) (downloadStart_inv file) hrun
  have hlength := downloadMachine.run_length_le
    (fun _ _ _ hs ht => downloadMachine_step_inv hs ht) (downloadStart_inv file) hrun
  refine ⟨?_, (download_progress s).symm, hinv.downloaded⟩
  have hstart : (downloadStart file).weight = 4 * file.length + 2 := rfl
  omega

/-- A file of two full chunks: the server ends on its third `read`, and the client on a transfer that times out. -/
theorem download_framed_full : ∃ s,
    downloadMachine.run (downloadStart (List.replicate 1024 5))
        [.serverRead, .serverWrite, .serverRead, .clientTransfer, .serverWrite, .serverRead, .clientTransfer,
          .clientTransfer] = some s ∧
      Downloaded (List.replicate 1024 5) s := by
  have hends : (downloadMachine.run (downloadStart (List.replicate 1024 5))
      [.serverRead, .serverWrite, .serverRead, .clientTransfer, .serverWrite, .serverRead, .clientTransfer,
        .clientTransfer]).map (fun s => (s.server, s.clientDone)) = some (.ended, true) := by decide +kernel
  obtain ⟨s, hs, hfinished⟩ := Option.map_eq_some_iff.mp hends
  exact ⟨s, hs, (download_framed hs).2.2 (Prod.mk.inj hfinished)⟩

end Download

section Upload

/-- Two uploads in a row: the sending loop of the client that runs, the file of the client that runs
next, the chunks sent and not yet read, the writes of the server to its output, and whether the server
has left its loop. -/
structure Upload where
  client : SendPc
  next : Option (List UInt8)
  channel : List (List UInt8)
  written : List (List UInt8)
  serverDone : Bool

/-- A step of a client, the start of the next one, or a step of the server. -/
inductive UploadStep where
  | clientRead
  | clientTransfer
  | clientNext
  | serverRead
  deriving DecidableEq

/-- The first client about to send, with the server waiting. -/
def uploadStart (first second : List UInt8) : Upload := ⟨.reading first, some second, [], [], false⟩

/-- The sending loop of `libusb_usb_client`, run for one file after the other, and the loop of
`usb_file_server`, whose `read` waits for a chunk. -/
def uploadMachine : Machine Upload UploadStep where
  step s
    | .clientRead =>
      match s.client with
      | .reading rest => some { s with client := SendPc.read rest }
      | .sending _ _ | .ended => none
    | .clientTransfer =>
      match s.client with
      | .sending chunk rest => some { s with
          channel := s.channel ++ [chunk]
          client := .reading rest }
      | .reading _ | .ended => none
    | .clientNext =>
      match s.client, s.next with
      | .ended, some second => some { s with client := .reading second, next := none }
      | _, _ => none
    | .serverRead =>
      if s.serverDone then none
      else
        match s.channel with
        | chunk :: channel => some { s with
            channel := channel
            written := s.written ++ [chunk]
            serverDone := decide (chunk.length < bufferSize) }
        | [] => none

/-- No program can go on: both files are sent, and the server has ended or waits in vain. -/
def Upload.AtRest (s : Upload) : Prop := ∀ step, uploadMachine.step s step = none

/-- The chunks that the next client will send. -/
def Upload.nextChunks (s : Upload) : List (List UInt8) :=
  match s.next with
  | some second => chunks bufferSize second
  | none => []

/-- The chunks of both files are written, in the channel or still to be sent, in this order, and the
server goes on while it reads full chunks. -/
structure UploadInv (first second : List UInt8) (s : Upload) : Prop where
  stream : s.written ++ (s.channel ++ (s.client.pending ++ s.nextChunks)) =
    chunks bufferSize first ++ chunks bufferSize second
  full : s.serverDone = false → Full bufferSize s.written
  stopped : s.serverDone = true → Closed bufferSize s.written

/-- A bound on the remaining steps. -/
def Upload.weight (s : Upload) : ℕ :=
  s.client.weight + s.channel.length +
    match s.next with
    | some second => 4 * second.length + 2
    | none => 0

variable {first second : List UInt8} {s t : Upload}

/-- Every step keeps the chunks in order and gets on. -/
theorem uploadMachine_step_inv {step : UploadStep} (hs : UploadInv first second s)
    (ht : uploadMachine.step s step = some t) :
    UploadInv first second t ∧ t.weight < s.weight := by
  obtain ⟨client, next, channel, written, serverDone⟩ := s
  cases step with
  | clientRead =>
    cases client with
    | reading rest =>
      obtain rfl := Option.some.inj ht
      refine ⟨⟨?_, hs.full, hs.stopped⟩, ?_⟩
      · simpa only [pending_read, Upload.nextChunks] using hs.stream
      · have hlt := weight_read rest
        simp only [Upload.weight]
        omega
    | sending chunk rest => simp [uploadMachine] at ht
    | ended => simp [uploadMachine] at ht
  | clientTransfer =>
    cases client with
    | reading rest => simp [uploadMachine] at ht
    | sending chunk rest =>
      obtain rfl := Option.some.inj ht
      refine ⟨⟨?_, hs.full, hs.stopped⟩, ?_⟩
      · rw [← hs.stream]
        simp [SendPc.pending, Upload.nextChunks]
      · simp only [Upload.weight, List.length_append, List.length_singleton, SendPc.weight]
        omega
    | ended => simp [uploadMachine] at ht
  | clientNext =>
    cases client with
    | reading rest => simp [uploadMachine] at ht
    | sending chunk rest => simp [uploadMachine] at ht
    | ended =>
      cases next with
      | none => simp [uploadMachine] at ht
      | some file =>
        obtain rfl := Option.some.inj ht
        refine ⟨⟨?_, hs.full, hs.stopped⟩, ?_⟩
        · rw [← hs.stream]
          simp [SendPc.pending, Upload.nextChunks]
        · simp only [Upload.weight, SendPc.weight]
          omega
  | serverRead =>
    cases serverDone with
    | true => simp [uploadMachine] at ht
    | false =>
      cases channel with
      | nil => simp [uploadMachine] at ht
      | cons chunk channel =>
        obtain rfl := Option.some.inj ht
        have hmem : chunk ∈ chunks bufferSize first ++ chunks bufferSize second := by
          rw [← hs.stream]
          simp
        have hle : chunk.length ≤ bufferSize :=
          (List.mem_append.mp hmem).elim (length_le_of_mem_chunks (by decide))
            (length_le_of_mem_chunks (by decide))
        have htaken := (hs.full rfl).take hle
        refine ⟨⟨?_, fun hmore => ?_, fun hdone => ?_⟩, ?_⟩
        · rw [← hs.stream]
          simp [Upload.nextChunks]
        · rwa [if_neg (by simpa using hmore)] at htaken
        · rwa [if_pos (by simpa using hdone)] at htaken
        · simp only [Upload.weight, List.length_cons]
          omega

/-- At the start both files are still to be sent. -/
theorem uploadStart_inv (first second : List UInt8) :
    UploadInv first second (uploadStart first second) where
  stream := rfl
  full := fun _ c hc => absurd hc List.not_mem_nil
  stopped := by simp [uploadStart]

/-- At rest both files are sent, and the server has ended or has read everything. -/
theorem Upload.AtRest.drained (h : s.AtRest) :
    s.client = .ended ∧ s.next = none ∧ (s.serverDone = false → s.channel = []) := by
  obtain ⟨client, next, channel, written, serverDone⟩ := s
  have hclient : client = .ended := by
    cases client with
    | reading rest => exact absurd (h .clientRead) (by simp [uploadMachine])
    | sending chunk rest => exact absurd (h .clientTransfer) (by simp [uploadMachine])
    | ended => rfl
  subst hclient
  refine ⟨rfl, ?_, fun hdone => ?_⟩
  · cases next with
    | none => rfl
    | some file => exact absurd (h .clientNext) (by simp [uploadMachine])
  · simp only at hdone
    subst hdone
    cases channel with
    | nil => rfl
    | cons chunk channel => exact absurd (h .serverRead) (by simp [uploadMachine])

/-- At rest the server has written what it takes for the first file. -/
theorem UploadInv.written_message (hs : UploadInv first second s) (hrest : s.AtRest) :
    s.written = message bufferSize (chunks bufferSize first ++ chunks bufferSize second) := by
  obtain ⟨hclient, hnext, hchannel⟩ := hrest.drained
  have hstream := hs.stream
  rw [hclient, Upload.nextChunks, hnext, SendPc.pending, List.append_nil, List.append_nil] at hstream
  cases hdone : s.serverDone with
  | true => rw [← hstream, (hs.stopped hdone).message_append]
  | false =>
    rw [hchannel hdone, List.append_nil] at hstream
    rw [← hstream, (hs.full hdone).message]

/-- Every run of two uploads in a row ends. At its end the server has written the first file and
nothing else exactly when 512 does not divide the length of the first file, or the second is empty. -/
theorem upload_framed_iff {steps : List UploadStep}
    (hrun : uploadMachine.run (uploadStart first second) steps = some s) :
    steps.length ≤ 4 * (first.length + second.length) + 3 ∧
      (s.AtRest → (s.written.flatten = first ↔ first.length % bufferSize ≠ 0 ∨ second = [])) := by
  have hinv : UploadInv first second s := uploadMachine.run_invariant
    (fun _ _ _ hs ht => (uploadMachine_step_inv hs ht).1) (uploadStart_inv first second) hrun
  have hlength := uploadMachine.run_length_le
    (fun _ _ _ hs ht => uploadMachine_step_inv hs ht) (uploadStart_inv first second) hrun
  have hstart : (uploadStart first second).weight =
      4 * first.length + 1 + 0 + (4 * second.length + 2) := rfl
  refine ⟨by omega, fun hrest => ?_⟩
  rw [hinv.written_message hrest, message_chunks_append (by decide), message_chunks (by decide)]
  split_ifs with hdivides
  · rw [List.flatten_append, flatten_chunks (by decide), flatten_chunks (by decide)]
    simp [hdivides]
  · rw [flatten_chunks (by decide)]
    simp [hdivides]

/-- A first file of one short chunk is all that is written. -/
theorem upload_framed_short :
    (⟨.ended, none, [[9]], [[1, 2]], true⟩ : Upload).written.flatten = [1, 2] :=
  ((@upload_framed_iff [1, 2] [9] _ [.clientRead, .clientTransfer, .clientRead, .clientNext,
    .serverRead, .clientRead, .clientTransfer, .clientRead] rfl).2 (by rintro (_ | _ | _ | _) <;> rfl)).mpr
    (Or.inl (by decide))

/-- A first file of 512 bytes is one full chunk, and the server writes the second file behind it. -/
theorem upload_runs_on : ¬ ∀ s, uploadMachine.run (uploadStart (List.replicate 512 0) [1])
    [.clientRead, .clientTransfer, .clientRead, .clientNext, .clientRead, .clientTransfer, .serverRead,
      .serverRead] = some s → s.written.flatten = List.replicate 512 0 := by
  intro h
  have hwritten : (uploadMachine.run (uploadStart (List.replicate 512 0) [1])
      [.clientRead, .clientTransfer, .clientRead, .clientNext, .clientRead, .clientTransfer,
        .serverRead, .serverRead]).map (fun s => s.written.flatten) =
      some (List.replicate 512 0 ++ [1]) := by decide +kernel
  obtain ⟨s, hs, hflatten⟩ := Option.map_eq_some_iff.mp hwritten
  have hlength := congrArg List.length ((h s hs).symm.trans hflatten)
  rw [List.length_append, List.length_replicate] at hlength
  exact absurd hlength (by decide)

end Upload

end LinuxFunctionTest.LibusbTest
