import LinuxFunctionTest.Library.Machine
import Mathlib.Algebra.Group.Nat.Defs

/-!
# The soft DMA channel

One channel of the software DMA controller: its three descriptor lists, its work counter and the
thread that performs the transfers. Client calls are atomic. The thread moves in the steps that its
lock and its copying delimit, so every client call can fall between any two of them. No function of
the repository submits a descriptor; submission is taken to append a prepared one to `submitted`.

The last fields of the state are observations that no function of the driver reads.
-/

namespace LinuxFunctionTest.SoftDma

/-- A transfer descriptor, numbered when it is allocated. -/
structure SoftDmaDesc where
  id : ℕ
  src : ℕ
  dst : ℕ
  len : ℕ
  flags : ℕ
  cookie : ℤ
  callback : Bool
  active : Bool
  deriving DecidableEq

/-- The lists and counters of a channel. -/
structure SoftDmaChan where
  taskCount : ℤ
  submitted : List SoftDmaDesc
  issued : List SoftDmaDesc
  completed : List SoftDmaDesc
  bytesTransferred : ℕ
  transactionsCompleted : ℕ

/-- Where `soft_dma_thread_fn` stands: in its wait, past it, holding a descriptor it has still to
copy, holding a copied one that is still linked on `issued`, or holding an unlinked one. -/
inductive ThreadState where
  | waiting
  | woken
  | copying (sdesc : SoftDmaDesc)
  | copied (sdesc : SoftDmaDesc)
  | unlinked (sdesc : SoftDmaDesc)
  deriving DecidableEq

/-- The answers of `soft_dma_tx_status`. -/
inductive DmaStatus where
  | dmaComplete
  | dmaInProgress
  deriving DecidableEq

/-- What `soft_dma_tx_status` returns and what it stores through `txstate`. -/
structure TxStatus where
  status : DmaStatus
  residue : ℕ
  lastUsed : ℤ
  lastComplete : ℤ
  deriving DecidableEq

/-- A channel with its thread, the physical memory it copies in, and the descriptors that clients
hold prepared. Observed: descriptors ever submitted, those submitted before some
`soft_dma_issue_pending` call, those such a call found on `submitted`, those copied, the wake-ups
that found no descriptor, the callbacks run and the status answers. -/
structure SoftDmaState where
  chan : SoftDmaChan
  thread : ThreadState
  mem : ℕ → UInt8
  prepared : List SoftDmaDesc
  fresh : ℕ
  everSubmitted : List ℕ
  promised : List ℕ
  spliced : List ℕ
  copied : List ℕ
  emptyWakes : ℕ
  callbacks : List ℕ
  answers : List (ℤ × TxStatus)

/-- The state after `soft_dma_alloc_chan_resources`. -/
def softDmaAllocated (mem : ℕ → UInt8) : SoftDmaState where
  chan := ⟨0, [], [], [], 0, 0⟩
  thread := .waiting
  mem := mem
  prepared := []
  fresh := 0
  everSubmitted := []
  promised := []
  spliced := []
  copied := []
  emptyWakes := 0
  callbacks := []
  answers := []

/-- `memcpy` between physical addresses. -/
def memcpy (mem : ℕ → UInt8) (dst src len : ℕ) : ℕ → UInt8 := fun addr =>
  if dst ≤ addr ∧ addr < dst + len then mem (src + (addr - dst)) else mem addr

/-- One step of `soft_dma_thread_fn`. The wait passes only when there is work. -/
def softDmaThreadFn (s : SoftDmaState) : Option SoftDmaState :=
  match s.thread with
  | .waiting => if 0 < s.chan.taskCount then some { s with thread := .woken } else none
  | .woken =>
    match s.chan.submitted with
    | [] => some { s with thread := .waiting, emptyWakes := s.emptyWakes + 1 }
    | sdesc :: rest =>
      let sdesc := { sdesc with active := true }
      some { s with
        chan := { s.chan with
          submitted := rest
          issued := s.chan.issued ++ [sdesc]
          taskCount := s.chan.taskCount - 1 }
        thread := .copying sdesc }
  | .copying sdesc =>
    if 0 < sdesc.len then
      some { s with
        chan := { s.chan with
          bytesTransferred := (s.chan.bytesTransferred + sdesc.len) % 2 ^ 64 }
        mem := memcpy s.mem sdesc.dst sdesc.src sdesc.len
        copied := sdesc.id :: s.copied
        thread := .copied sdesc }
    else some { s with thread := .copied sdesc }
  | .copied sdesc =>
    some { s with
      chan := { s.chan with issued := s.chan.issued.erase sdesc }
      thread := .unlinked sdesc }
  | .unlinked sdesc =>
    -- The callback runs without the lock, before the descriptor is linked on `completed`.
    some { s with
      chan := { s.chan with
        completed := s.chan.completed ++ [sdesc]
        transactionsCompleted := (s.chan.transactionsCompleted + 1) % 2 ^ 64 }
      callbacks := if sdesc.callback then sdesc.id :: s.callbacks else s.callbacks
      thread := .waiting }

/-- `soft_dma_prep_dma_memcpy`; `allocated` is the outcome of its `kzalloc`. -/
def softDmaPrepDmaMemcpy (s : SoftDmaState) (dst src len flags : ℕ) (allocated : Bool) :
    SoftDmaState :=
  if len = 0 then s
  else if allocated then
    { s with
      prepared := ⟨s.fresh, src, dst, len, flags, 0, false, false⟩ :: s.prepared
      fresh := s.fresh + 1 }
  else s

/-- Submission of the prepared descriptor `id`, which the client gives a callback or not. -/
def submit (s : SoftDmaState) (id : ℕ) (cookie : ℤ) (callback : Bool) : SoftDmaState :=
  match s.prepared.find? (·.id = id) with
  | none => s
  | some sdesc =>
    { s with
      prepared := s.prepared.erase sdesc
      chan := { s.chan with
        submitted := s.chan.submitted ++ [{ sdesc with cookie := cookie, callback := callback }] }
      everSubmitted := sdesc.id :: s.everSubmitted }

/-- `soft_dma_issue_pending`: splice `submitted` behind `issued`, count one task, wake the thread. -/
def softDmaIssuePending (s : SoftDmaState) : SoftDmaState :=
  { s with
    chan := { s.chan with
      submitted := []
      issued := s.chan.issued ++ s.chan.submitted
      taskCount := s.chan.taskCount + 1 }
    promised := s.everSubmitted
    spliced := s.chan.submitted.map (·.id) ++ s.spliced }

/-- One iteration of the loop of `soft_dma_tx_status` over `issued`. -/
def scanIssued (cookie : ℤ) (t : TxStatus) (sdesc : SoftDmaDesc) : TxStatus :=
  { t with
    status := if sdesc.cookie = cookie then .dmaInProgress else t.status
    residue := if sdesc.cookie = cookie then sdesc.len % 2 ^ 32 else t.residue
    lastUsed := max t.lastUsed sdesc.cookie }

/-- One iteration of the loop of `soft_dma_tx_status` over `completed`. -/
def scanCompleted (cookie : ℤ) (t : TxStatus) (sdesc : SoftDmaDesc) : TxStatus :=
  { t with
    status := if sdesc.cookie = cookie then .dmaComplete else t.status
    residue := if sdesc.cookie = cookie then 0 else t.residue
    lastComplete := max t.lastComplete sdesc.cookie }

/-- `soft_dma_tx_status`; without a `txstate` it answers at once. -/
def softDmaTxStatus (chan : SoftDmaChan) (cookie : ℤ) (txstate : Bool) : TxStatus :=
  if txstate then
    chan.completed.foldl (scanCompleted cookie)
      (chan.issued.foldl (scanIssued cookie) ⟨.dmaComplete, 0, 0, 0⟩)
  else ⟨.dmaComplete, 0, 0, 0⟩

/-- The calls of the clients. -/
inductive ClientCall where
  | prepDmaMemcpy (dst src len flags : ℕ) (allocated : Bool)
  | submit (id : ℕ) (cookie : ℤ) (callback : Bool)
  | issuePending
  | txStatus (cookie : ℤ) (txstate : Bool)
  deriving DecidableEq

/-- The effect of a client call. -/
def clientCall (s : SoftDmaState) : ClientCall → SoftDmaState
  | .prepDmaMemcpy dst src len flags allocated => softDmaPrepDmaMemcpy s dst src len flags allocated
  | .submit id cookie callback => submit s id cookie callback
  | .issuePending => softDmaIssuePending s
  | .txStatus cookie txstate =>
    { s with answers := (cookie, softDmaTxStatus s.chan cookie txstate) :: s.answers }

/-- A step of the channel: a client call or a step of the thread. -/
inductive SoftDmaStep where
  | client (call : ClientCall)
  | thread
  deriving DecidableEq

/-- The interleavings of client calls with the thread. -/
def softDmaMachine : Machine SoftDmaState SoftDmaStep where
  step s label := match label with
    | .client call => some (clientCall s call)
    | .thread => softDmaThreadFn s

/-- The client calls of an interleaving, in order. -/
def SoftDmaStep.calls (labels : List SoftDmaStep) : List ClientCall :=
  labels.filterMap fun label => match label with
    | .client call => some call
    | .thread => none

/-- A run of client calls alone executes them one after the other. -/
theorem run_clients (s : SoftDmaState) (calls : List ClientCall) :
    softDmaMachine.run s (calls.map SoftDmaStep.client) = some (calls.foldl clientCall s) := by
  induction calls generalizing s with
  | nil => rfl
  | cons call rest ih =>
    rw [List.map_cons, Machine.run_cons]
    exact ih (clientCall s call)

/-- What a client call can do: nothing, number a new descriptor, submit a prepared one, issue what was
submitted, or answer. -/
theorem clientCall_cases (s : SoftDmaState) (call : ClientCall) :
    clientCall s call = s ∨
    (∃ sdesc, sdesc.id = s.fresh ∧ 0 < sdesc.len ∧
      clientCall s call = { s with prepared := sdesc :: s.prepared, fresh := s.fresh + 1 }) ∨
    (∃ sdesc cookie callback, sdesc ∈ s.prepared ∧
      clientCall s call =
        { s with
          prepared := s.prepared.erase sdesc
          chan := { s.chan with
            submitted :=
              s.chan.submitted ++ [{ sdesc with cookie := cookie, callback := callback }] }
          everSubmitted := sdesc.id :: s.everSubmitted }) ∨
    (call = .issuePending ∧ clientCall s call = softDmaIssuePending s) ∨
    ∃ answer, clientCall s call = { s with answers := answer :: s.answers } := by
  cases call with
  | prepDmaMemcpy dst src len flags allocated =>
    simp only [clientCall, softDmaPrepDmaMemcpy]
    split_ifs with hlen
    · exact .inl rfl
    · exact .inr (.inl ⟨_, rfl, Nat.pos_of_ne_zero hlen, rfl⟩)
    · exact .inl rfl
  | submit id cookie callback =>
    simp only [clientCall, submit]
    split
    · exact .inl rfl
    · next sdesc hfind =>
      exact .inr (.inr (.inl ⟨sdesc, cookie, callback, List.mem_of_find?_eq_some hfind, rfl⟩))
  | issuePending => exact .inr (.inr (.inr (.inl ⟨rfl, rfl⟩)))
  | txStatus cookie txstate => exact .inr (.inr (.inr (.inr ⟨_, rfl⟩)))

/-- Client calls do not move the thread. -/
theorem clientCall_thread (s : SoftDmaState) (call : ClientCall) :
    (clientCall s call).thread = s.thread ∧ (clientCall s call).emptyWakes = s.emptyWakes := by
  obtain h | ⟨_, _, _, h⟩ | ⟨_, _, _, _, h⟩ | ⟨_, h⟩ | ⟨_, h⟩ := clientCall_cases s call <;>
  · rw [h]
    exact ⟨rfl, rfl⟩

/-- What a step of the thread can be: waking up, finding nothing, taking the first submitted
descriptor, copying it, passing over an empty one, unlinking it, or completing it. -/
theorem softDmaThreadFn_cases {s t : SoftDmaState} (ht : softDmaThreadFn s = some t) :
    (s.thread = .waiting ∧ t = { s with thread := .woken }) ∨
    (s.thread = .woken ∧ s.chan.submitted = [] ∧
      t = { s with thread := .waiting, emptyWakes := s.emptyWakes + 1 }) ∨
    (∃ sdesc rest, s.thread = .woken ∧ s.chan.submitted = sdesc :: rest ∧
      t = { s with
        chan := { s.chan with
          submitted := rest
          issued := s.chan.issued ++ [{ sdesc with active := true }]
          taskCount := s.chan.taskCount - 1 }
        thread := .copying { sdesc with active := true } }) ∨
    (∃ sdesc, s.thread = .copying sdesc ∧ 0 < sdesc.len ∧
      t = { s with
        chan := { s.chan with
          bytesTransferred := (s.chan.bytesTransferred + sdesc.len) % 2 ^ 64 }
        mem := memcpy s.mem sdesc.dst sdesc.src sdesc.len
        copied := sdesc.id :: s.copied
        thread := .copied sdesc }) ∨
    (∃ sdesc, s.thread = .copying sdesc ∧ sdesc.len = 0 ∧ t = { s with thread := .copied sdesc }) ∨
    (∃ sdesc, s.thread = .copied sdesc ∧
      t = { s with
        chan := { s.chan with issued := s.chan.issued.erase sdesc }
        thread := .unlinked sdesc }) ∨
    (∃ sdesc, s.thread = .unlinked sdesc ∧
      t = { s with
        chan := { s.chan with
          completed := s.chan.completed ++ [sdesc]
          transactionsCompleted := (s.chan.transactionsCompleted + 1) % 2 ^ 64 }
        callbacks := if sdesc.callback then sdesc.id :: s.callbacks else s.callbacks
        thread := .waiting }) := by
  unfold softDmaThreadFn at ht
  split at ht
  case h_1 hthread =>
    split_ifs at ht
    exact .inl ⟨hthread, (Option.some.inj ht).symm⟩
  case h_2 hthread =>
    split at ht
    case h_1 hsubmitted => exact .inr (.inl ⟨hthread, hsubmitted, (Option.some.inj ht).symm⟩)
    case h_2 sdesc rest hsubmitted =>
      exact .inr (.inr (.inl ⟨sdesc, rest, hthread, hsubmitted, (Option.some.inj ht).symm⟩))
  case h_3 sdesc hthread =>
    split_ifs at ht with hlen
    · exact .inr (.inr (.inr (.inl ⟨sdesc, hthread, hlen, (Option.some.inj ht).symm⟩)))
    · exact .inr (.inr (.inr (.inr (.inl
        ⟨sdesc, hthread, Nat.eq_zero_of_not_pos hlen, (Option.some.inj ht).symm⟩))))
  case h_4 sdesc hthread =>
    exact .inr (.inr (.inr (.inr (.inr (.inl ⟨sdesc, hthread, (Option.some.inj ht).symm⟩)))))
  case h_5 sdesc hthread =>
    exact .inr (.inr (.inr (.inr (.inr (.inr ⟨sdesc, hthread, (Option.some.inj ht).symm⟩)))))

end LinuxFunctionTest.SoftDma
