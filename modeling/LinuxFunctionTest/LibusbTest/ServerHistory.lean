import LinuxFunctionTest.LibusbTest.FileServer
import LinuxFunctionTest.LibusbTest.Framing

/-!
# What the server remembers

`rawbulk_server` sets its buffers to zero before each request, but it never closes a file. When no descriptor is
left, `open` fails; the check behind it looks at the descriptor of the device, so the server reads from no file and
sends nothing.
-/

namespace LinuxFunctionTest.LibusbTest

open Chunks

/-- A write to the device: the bytes, and what `write` returned. -/
structure DeviceWrite where
  bytes : List UInt8
  result : ℤ
  deriving DecidableEq

/-- The buffers of the server and the files that it holds open. -/
structure RawbulkServer where
  buffer : List UInt8
  fileNamePath : List UInt8
  openFiles : ℕ

/-- A request, and what `write` returns while it is served. -/
structure ServerRequest where
  request : List UInt8
  results : ℕ → ℤ

/-- `memset` of a buffer of `size` bytes. -/
def zeroed (size : ℕ) : List UInt8 := List.replicate size 0

/-- `read` into a buffer. -/
def readInto (buffer bytes : List UInt8) : List UInt8 := bytes ++ buffer.drop bytes.length

/-- The loop that sends a file, from its `i`-th chunk on: the writes, and the buffer behind it. -/
def sendLoop (results : ℕ → ℤ) : ℕ → List (List UInt8) → List UInt8 → List DeviceWrite × List UInt8
  | _, [], buffer => ([], buffer)
  | i, chunk :: rest, buffer =>
    let buffer := readInto buffer chunk
    if results i ≠ chunk.length ∨ chunk.length < bufferSize then ([⟨chunk, results i⟩], buffer)
    else
      let (writes, buffer) := sendLoop results (i + 1) rest buffer
      (⟨chunk, results i⟩ :: writes, buffer)

namespace RawbulkServer

/-- One round of the loop of `rawbulk_server`. `store` has the files that may be read, `free` is the number of files
that can be open at a time. -/
def serve (store : List UInt8 → Option (List UInt8)) (free : ℕ) (s : RawbulkServer) (next : ServerRequest) :
    RawbulkServer × List DeviceWrite :=
  let buffer := readInto (zeroed bufferSize) next.request
  if next.request = [] then ({ s with buffer := buffer }, [])
  else
    let path := LibusbTest.fileNamePath buffer
    match store path with
    | none => ({ s with buffer := buffer, fileNamePath := path }, [])
    | some file =>
      if s.openFiles < free then
        let (writes, buffer) := sendLoop next.results 0 (chunks bufferSize file) buffer
        (⟨buffer, path, s.openFiles + 1⟩, writes)
      else (⟨buffer, path, s.openFiles⟩, [])

/-- The server behind a history of requests. -/
def serveAll (store : List UInt8 → Option (List UInt8)) (free : ℕ) (history : List ServerRequest) : RawbulkServer :=
  history.foldl (fun s next => (s.serve store free next).1) ⟨zeroed bufferSize, zeroed 64, 0⟩

end RawbulkServer

/-- The writes for a request behind a history. -/
def answer (store : List UInt8 → Option (List UInt8)) (free : ℕ) (history : List ServerRequest)
    (next : ServerRequest) : List DeviceWrite :=
  ((RawbulkServer.serveAll store free history).serve store free next).2

/-- A request opens a file, as long as one more can be open. -/
def ServerRequest.opens (store : List UInt8 → Option (List UInt8)) (r : ServerRequest) : Bool :=
  !r.request.isEmpty && (store (fileNamePath r.request)).isSome

/-- There is nothing to send for a request: it is empty, or its file cannot be read, or is empty. -/
def SendsNothing (store : List UInt8 → Option (List UInt8)) (next : ServerRequest) : Prop :=
  next.request = [] ∨ ∀ file, store (fileNamePath next.request) = some file → file = []

section Rounds

variable {store : List UInt8 → Option (List UInt8)} {free : ℕ} {s : RawbulkServer} {next : ServerRequest}

/-- The zeros behind a request end its name, and are no part of it. -/
theorem requestedName_append_zeros (request : List UInt8) (n : ℕ) :
    requestedName (request ++ List.replicate n 0) = requestedName request := by
  unfold requestedName
  induction request with
  | nil => cases n <;> simp [List.replicate_succ]
  | cons c request ih => rw [List.cons_append, List.takeWhile_cons, List.takeWhile_cons, ih]

/-- The path is made of the request alone: the buffer was set to zero before. -/
theorem fileNamePath_readInto (request : List UInt8) (size : ℕ) :
    fileNamePath (readInto (zeroed size) request) = fileNamePath request := by
  rw [fileNamePath, readInto, zeroed, List.drop_replicate, requestedName_append_zeros, fileNamePath]

/-- A round leaves one file more open when the request opens one and there is room. -/
theorem serve_openFiles : (s.serve store free next).1.openFiles =
    if next.opens store = true ∧ s.openFiles < free then s.openFiles + 1 else s.openFiles := by
  unfold RawbulkServer.serve ServerRequest.opens
  by_cases hempty : next.request = []
  · simp [hempty]
  · simp only [hempty, fileNamePath_readInto, if_false]
    cases hstore : store (fileNamePath next.request) with
    | none => simp
    | some file =>
      by_cases hroom : s.openFiles < free
      · simp [hempty, hroom]
      · simp [hroom]

/-- The files that are open behind a history: one for each request that opened one, as many as there can be. -/
theorem serveAll_openFiles (history : List ServerRequest) :
    (RawbulkServer.serveAll store free history).openFiles = min free (history.countP (·.opens store)) := by
  induction history using List.reverseRecOn with
  | nil => simp [RawbulkServer.serveAll]
  | append_singleton history next ih =>
    unfold RawbulkServer.serveAll at ih ⊢
    rw [List.foldl_append, List.foldl_cons, List.foldl_nil, serve_openFiles, ih, List.countP_append,
      List.countP_singleton]
    cases next.opens store with
    | false => simp
    | true =>
      simp only [true_and, if_true]
      split
      · omega
      · omega

/-- A file that is not empty is sent. -/
theorem sendLoop_ne_nil (results : ℕ → ℤ) (i : ℕ) {chunk : List UInt8} {rest : List (List UInt8)}
    (buffer : List UInt8) : (sendLoop results i (chunk :: rest) buffer).1 ≠ [] := by
  simp only [sendLoop]
  split
  · exact List.cons_ne_nil _ _
  · exact List.cons_ne_nil _ _

/-- The writes for a request that opens no file. -/
theorem serve_writes_of_nothing (h : SendsNothing store next) : (s.serve store free next).2 = [] := by
  unfold RawbulkServer.serve
  by_cases hempty : next.request = []
  · simp [hempty]
  · simp only [hempty, fileNamePath_readInto, if_false]
    cases hstore : store (fileNamePath next.request) with
    | none => rfl
    | some file =>
      have hfile : file = [] := h.resolve_left hempty file hstore
      subst hfile
      simp only [chunks_nil, sendLoop]
      split
      · rfl
      · rfl

/-- The writes for a request that has something to send: they depend on whether there is room for its file, and
there are none without. -/
theorem serve_writes_of_something (free : ℕ) (h : ¬ SendsNothing store next) : ∃ writes, writes ≠ [] ∧
    ∀ s : RawbulkServer, (s.serve store free next).2 = if s.openFiles < free then writes else [] := by
  obtain ⟨hempty, hsome⟩ := not_or.mp h
  simp only [not_forall] at hsome
  obtain ⟨file, hstore, hfile⟩ := hsome
  let buffer := readInto (zeroed bufferSize) next.request
  refine ⟨(sendLoop next.results 0 (chunks bufferSize file) buffer).1, ?_, ?_⟩
  · rw [chunks_of_ne_nil (by decide) hfile]
    exact sendLoop_ne_nil _ _ _
  · intro s
    simp only [RawbulkServer.serve, hempty, fileNamePath_readInto, hstore, if_false]
    split
    · rfl
    · rfl

end Rounds

/-- **What the server remembers.** The writes for a request are the same behind two histories exactly when there is
nothing to send, or both histories have opened fewer files than can be open at a time, or both have not. -/
theorem answer_eq_iff (store : List UInt8 → Option (List UInt8)) (free : ℕ) (history history' : List ServerRequest)
    (next : ServerRequest) : answer store free history next = answer store free history' next ↔
      SendsNothing store next ∨
        (history.countP (·.opens store) < free ↔ history'.countP (·.opens store) < free) := by
  have hroom : ∀ history : List ServerRequest, (RawbulkServer.serveAll store free history).openFiles < free ↔
      history.countP (·.opens store) < free := by
    intro history
    rw [serveAll_openFiles]
    omega
  by_cases hnothing : SendsNothing store next
  · rw [answer, answer, serve_writes_of_nothing hnothing, serve_writes_of_nothing hnothing]
    exact iff_of_true rfl (.inl hnothing)
  · obtain ⟨writes, hwrites, hanswer⟩ := serve_writes_of_something free hnothing
    simp only [answer, hanswer, hroom, hnothing, false_or]
    split_ifs with hleft hright hright
    · exact iff_of_true rfl (iff_of_true hleft hright)
    · exact iff_of_false hwrites fun hiff => hright (hiff.mp hleft)
    · exact iff_of_false (Ne.symm hwrites) fun hiff => hleft (hiff.mpr hright)
    · exact iff_of_true rfl (iff_of_false hleft hright)

/-- With one descriptor left, the first request for a file of one byte is answered, and the second is not. -/
theorem answer_ne : ¬ ∀ store free history history' next,
    answer store free history next = answer store free history' next := by
  intro h
  let store : List UInt8 → Option (List UInt8) := fun _ => some [1]
  let next : ServerRequest := ⟨[97], fun _ => 1⟩
  have hsomething : ¬ SendsNothing store next := by simp [SendsNothing, store, next]
  obtain ⟨writes, hwrites, hanswer⟩ := serve_writes_of_something 1 hsomething
  have hsame := h store 1 [] [next] next
  have hfull : (RawbulkServer.serveAll store 1 [next]).openFiles = 1 := by
    rw [serveAll_openFiles]
    rfl
  rw [answer, answer, hanswer, hanswer, hfull] at hsame
  exact hwrites hsame

end LinuxFunctionTest.LibusbTest
