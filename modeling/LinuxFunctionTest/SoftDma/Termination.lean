import LinuxFunctionTest.SoftDma.Channel
import Mathlib.Data.List.Nodup
import Mathlib.Data.List.Perm.Basic

/-!
# Descriptor ownership under termination

`soft_dma_terminate_all` and `soft_dma_free_chan_resources` splice the three lists of the channel
onto a list of their own and free its elements in a loop that reads the link of each element after
freeing it. Any number of such calls run here beside the thread and the clients, in the steps that
the lock and the single iterations delimit. The main result is that the descriptors stay owned,
also through one further step of any call, exactly when no call ever frees one.
-/

namespace LinuxFunctionTest.SoftDma

open scoped List

/-- What is done to a descriptor: it is freed, copied, taken off a list, put on a list, or used to
reach the next element. -/
inductive DescEvent where
  | free (id : ℕ)
  | copy (id : ℕ)
  | unlink (id : ℕ)
  | relink (id : ℕ)
  | next (id : ℕ)
  deriving DecidableEq

/-- The descriptor of an event. -/
def DescEvent.id : DescEvent → ℕ
  | .free id | .copy id | .unlink id | .relink id | .next id => id

/-- Where a call stands: before its look at the thread, waiting for the thread to exit, before the
splice, before the next iteration over its own list, or between the freeing of an element and the
reading of its link. -/
inductive ReleaseCall where
  | halting
  | joining
  | splicing
  | walking (head : List SoftDmaDesc)
  | freed (sdesc : SoftDmaDesc) (rest : List SoftDmaDesc)
  | returned

/-- The descriptors a call has on its own list and not yet freed. -/
def ReleaseCall.head : ReleaseCall → List SoftDmaDesc
  | .walking head => head
  | .freed _ rest => rest
  | _ => []

/-- `list_del` of a descriptor that may be on the call's own list. -/
def ReleaseCall.listDel (sdesc : SoftDmaDesc) : ReleaseCall → ReleaseCall
  | .walking head => .walking (head.erase sdesc)
  | .freed last rest => .freed last (rest.erase sdesc)
  | call => call

/-- A channel with the life of its thread, the calls that release descriptors, and the events on
descriptors, newest first. -/
structure ReleaseState where
  dma : SoftDmaState
  threadExists : Bool
  shouldStop : Bool
  exited : Bool
  stop : Bool
  calls : List ReleaseCall
  log : List DescEvent

/-- A channel right after its resources were allocated. -/
def releaseStart (mem : ℕ → UInt8) : ReleaseState :=
  ⟨softDmaAllocated mem, true, false, false, false, [], []⟩

/-- What the next step of the thread does to a descriptor, newest first. -/
def threadEvents (s : SoftDmaState) : List DescEvent :=
  match s.thread with
  | .waiting => []
  | .woken =>
    match s.chan.submitted with
    | [] => []
    | sdesc :: _ => [.relink sdesc.id, .unlink sdesc.id]
  | .copying sdesc => if 0 < sdesc.len then [.copy sdesc.id] else []
  | .copied sdesc => [.unlink sdesc.id]
  | .unlinked sdesc => [.relink sdesc.id]

/-- The `list_del` after the copy finds the descriptor on whichever list it is on. -/
def unlinkFromCalls (s : SoftDmaState) (calls : List ReleaseCall) : List ReleaseCall :=
  match s.thread with
  | .copied sdesc => calls.map (·.listDel sdesc)
  | _ => calls

/-- The thread leaves its loop. -/
def ReleaseState.exit (s : ReleaseState) : ReleaseState := { s with exited := true }

/-- The thread has taken the channel to `dma`. -/
def ReleaseState.advance (s : ReleaseState) (dma : SoftDmaState) : ReleaseState :=
  { s with
    dma := dma
    calls := unlinkFromCalls s.dma s.calls
    log := threadEvents s.dma ++ s.log }

/-- One step of `soft_dma_thread_fn` beside releasing calls: `kthread_should_stop` ends the wait and
the loop. -/
def threadStep (s : ReleaseState) : Option ReleaseState :=
  if s.exited then none
  else if s.dma.thread = .waiting ∧ s.shouldStop then some s.exit
  else (softDmaThreadFn s.dma).map s.advance

/-- The call `i` moves on. -/
def ReleaseState.setCall (s : ReleaseState) (i : ℕ) (call : ReleaseCall) : ReleaseState :=
  { s with calls := s.calls.set i call }

/-- A client call. -/
def ReleaseState.client (s : ReleaseState) (call : ClientCall) : ReleaseState :=
  { s with dma := clientCall s.dma call }

/-- `soft_dma_terminate_all` is called. -/
def softDmaTerminateAll (s : ReleaseState) : ReleaseState :=
  { s with calls := s.calls ++ [.splicing] }

/-- `soft_dma_free_chan_resources` is called and asks the thread to stop. -/
def softDmaFreeChanResources (s : ReleaseState) : ReleaseState :=
  { s with stop := true, calls := s.calls ++ [.halting] }

/-- `kthread_stop` raises the flag of the thread. -/
def ReleaseState.askStop (s : ReleaseState) (i : ℕ) : ReleaseState :=
  { s with shouldStop := true }.setCall i .joining

/-- `kthread_stop` returns and the channel forgets its thread. -/
def ReleaseState.forgetThread (s : ReleaseState) (i : ℕ) : ReleaseState :=
  { s with threadExists := false }.setCall i .splicing

/-- The lists of the channel in the order in which the three splices leave them. -/
def SoftDmaChan.linked (chan : SoftDmaChan) : List SoftDmaDesc :=
  chan.completed ++ chan.issued ++ chan.submitted

/-- The three lists move onto the call's own list. -/
def ReleaseState.splice (s : ReleaseState) (i : ℕ) : ReleaseState :=
  { s with
    dma := { s.dma with
      chan := { s.dma.chan with submitted := [], issued := [], completed := [] } } }.setCall i
    (.walking s.dma.chan.linked)

/-- `soft_dma_desc_free` on the element the loop stands on. -/
def ReleaseState.descFree (s : ReleaseState) (i : ℕ) (sdesc : SoftDmaDesc)
    (rest : List SoftDmaDesc) : ReleaseState :=
  { s with log := .free sdesc.id :: s.log }.setCall i (.freed sdesc rest)

/-- The loop reads the link of the element it has freed. -/
def ReleaseState.readNext (s : ReleaseState) (i : ℕ) (sdesc : SoftDmaDesc)
    (rest : List SoftDmaDesc) : ReleaseState :=
  { s with log := .next sdesc.id :: s.log }.setCall i (.walking rest)

/-- The next step of the call `i`. -/
def releaseStep (s : ReleaseState) (i : ℕ) : ReleaseCall → Option ReleaseState
  | .halting => some (if s.threadExists then s.askStop i else s.setCall i .splicing)
  | .joining => if s.exited then some (s.forgetThread i) else none
  | .splicing => some (s.splice i)
  | .walking [] => some (s.setCall i .returned)
  | .walking (sdesc :: rest) => some (s.descFree i sdesc rest)
  | .freed sdesc rest => some (s.readNext i sdesc rest)
  | .returned => none

/-- A step of a client, of the thread, the start of a releasing call, or a step of one. -/
inductive ReleaseLabel where
  | client (call : ClientCall)
  | thread
  | terminateAll
  | freeChanResources
  | advance (i : ℕ)
  deriving DecidableEq

/-- The interleavings of clients, thread and releasing calls. -/
def releaseMachine : Machine ReleaseState ReleaseLabel where
  step s label := match label with
    | .client call => some (s.client call)
    | .thread => threadStep s
    | .terminateAll => some (softDmaTerminateAll s)
    | .freeChanResources => some (softDmaFreeChanResources s)
    | .advance i => (s.calls[i]?).bind (releaseStep s i)

/-- No event is about a descriptor that was freed before. -/
def FreeLegal : List DescEvent → Prop
  | [] => True
  | event :: earlier => .free event.id ∉ earlier ∧ FreeLegal earlier

/-- The descriptors on the own lists of the calls. -/
def heads (calls : List ReleaseCall) : List SoftDmaDesc := calls.flatMap ReleaseCall.head

/-- The descriptors linked on some list. -/
def ReleaseState.linked (s : ReleaseState) : List SoftDmaDesc :=
  s.dma.chan.linked ++ heads s.calls

/-- Nothing happened to a descriptor after it was freed, and each is linked at most once. -/
structure DescriptorsOwned (s : ReleaseState) : Prop where
  legal : FreeLegal s.log
  once : (s.linked.map (·.id)).Nodup

/-- The descriptors are owned, and no call is about to change that. -/
structure DescriptorsSafe (s : ReleaseState) : Prop where
  owned : DescriptorsOwned s
  next : ∀ i t, releaseMachine.step s (.advance i) = some t → DescriptorsOwned t

/-- A call that takes a step of its loop finds its own list empty. -/
def NothingFreed (s : ReleaseState) : ReleaseLabel → Prop
  | .advance i => ∀ head, s.calls[i]? = some (.walking head) → head = []
  | _ => True

/-- The own list of a call after a `list_del`. -/
@[simp] theorem head_listDel (sdesc : SoftDmaDesc) (call : ReleaseCall) :
    (call.listDel sdesc).head = call.head.erase sdesc := by
  cases call <;> rfl

/-- The own lists of several calls follow each other. -/
@[simp] theorem heads_cons (call : ReleaseCall) (calls : List ReleaseCall) :
    heads (call :: calls) = call.head ++ heads calls := rfl

/-- A call that starts has nothing on its own list. -/
theorem heads_append_singleton (calls : List ReleaseCall) {call : ReleaseCall}
    (hcall : call.head = []) : heads (calls ++ [call]) = heads calls := by
  simp [heads, hcall]

/-- Replacing a call exchanges its own list. -/
theorem heads_set_perm {calls : List ReleaseCall} {i : ℕ} {old : ReleaseCall}
    (hold : calls[i]? = some old) (call : ReleaseCall) :
    (old.head ++ heads (calls.set i call)).Perm (call.head ++ heads calls) := by
  induction calls generalizing i with
  | nil => simp at hold
  | cons c cs ih =>
    cases i with
    | zero =>
      obtain rfl := Option.some.inj hold
      exact List.perm_append_comm_assoc _ _ _
    | succ i =>
      have hperm := ih (i := i) (by simpa using hold)
      calc old.head ++ (c.head ++ heads (cs.set i call))
        _ ~ c.head ++ (old.head ++ heads (cs.set i call)) := List.perm_append_comm_assoc _ _ _
        _ ~ c.head ++ (call.head ++ heads cs) := hperm.append_left _
        _ ~ call.head ++ (c.head ++ heads cs) := List.perm_append_comm_assoc _ _ _

/-- A `list_del` changes no list that the descriptor is not on. -/
theorem heads_listDel_of_notMem {sdesc : SoftDmaDesc} {calls : List ReleaseCall}
    (h : sdesc ∉ heads calls) : heads (calls.map (·.listDel sdesc)) = heads calls := by
  induction calls with
  | nil => rfl
  | cons c cs ih =>
    simp only [heads_cons, List.mem_append, not_or] at h
    simp [List.erase_of_not_mem h.1, ih h.2]

/-- A `list_del` takes off exactly the descriptor. -/
theorem heads_listDel_perm {sdesc : SoftDmaDesc} {calls : List ReleaseCall}
    (h : sdesc ∈ heads calls) (hnodup : (heads calls).Nodup) :
    (sdesc :: heads (calls.map (·.listDel sdesc))).Perm (heads calls) := by
  induction calls with
  | nil => simp [heads] at h
  | cons c cs ih =>
    simp only [heads_cons, List.map_cons, head_listDel] at h hnodup ⊢
    by_cases hc : sdesc ∈ c.head
    · have hcs : sdesc ∉ heads cs := fun hcs => List.disjoint_of_nodup_append hnodup hc hcs
      rw [heads_listDel_of_notMem hcs]
      exact ((List.perm_cons_erase hc).symm).append_right _
    · have hcs : sdesc ∈ heads cs := (List.mem_append.mp h).resolve_left hc
      rw [List.erase_of_not_mem hc]
      exact List.perm_middle.symm.trans ((ih hcs (hnodup.of_append_right)).append_left _)

/-- The `list_del` after the copy takes the descriptor off `issued` or off the call's list it was
moved to. -/
theorem listDel_perm {sdesc : SoftDmaDesc} {issued : List SoftDmaDesc} {calls : List ReleaseCall}
    (h : sdesc ∈ issued ++ heads calls) (hnodup : (issued ++ heads calls).Nodup) :
    (sdesc :: (issued.erase sdesc ++ heads (calls.map (·.listDel sdesc)))).Perm
      (issued ++ heads calls) := by
  by_cases hissued : sdesc ∈ issued
  · have hheads : sdesc ∉ heads calls := fun hh => List.disjoint_of_nodup_append hnodup hissued hh
    rw [heads_listDel_of_notMem hheads]
    exact ((List.perm_cons_erase hissued).symm).append_right _
  · have hheads : sdesc ∈ heads calls := (List.mem_append.mp h).resolve_left hissued
    rw [List.erase_of_not_mem hissued]
    exact List.perm_middle.symm.trans
      ((heads_listDel_perm hheads hnodup.of_append_right).append_left _)

/-- The descriptor that the thread holds on no list. -/
def ThreadState.loose : ThreadState → List ℕ
  | .unlinked sdesc => [sdesc.id]
  | _ => []

/-- Where a descriptor can be: prepared by a client, linked, or held by the thread on no list. -/
def ReleaseState.places (s : ReleaseState) : List ℕ :=
  s.dma.prepared.map (·.id) ++ s.linked.map (·.id) ++ s.dma.thread.loose

/-- What holds as long as no call frees a descriptor. -/
structure Unreleased (s : ReleaseState) : Prop where
  nodup : s.places.Nodup
  bound : ∀ id ∈ s.places, id < s.dma.fresh
  held : ∀ sdesc, s.dma.thread = .copying sdesc ∨ s.dma.thread = .copied sdesc →
    sdesc ∈ s.dma.chan.issued ++ heads s.calls
  unfreed : ∀ id, .free id ∉ s.log
  loops : ∀ sdesc rest, .freed sdesc rest ∉ s.calls

/-- A step that only moves descriptors between their places keeps them numbered. -/
theorem Unreleased.of_perm {s t : ReleaseState} (h : Unreleased s) (hplaces : t.places ~ s.places)
    (hfresh : t.dma.fresh = s.dma.fresh)
    (held : ∀ sdesc, t.dma.thread = .copying sdesc ∨ t.dma.thread = .copied sdesc →
      sdesc ∈ t.dma.chan.issued ++ heads t.calls)
    (unfreed : ∀ id, .free id ∉ t.log) (loops : ∀ sdesc rest, .freed sdesc rest ∉ t.calls) :
    Unreleased t where
  nodup := hplaces.nodup_iff.mpr h.nodup
  bound := fun id hid => hfresh ▸ h.bound id (hplaces.mem_iff.mp hid)
  held := held
  unfreed := unfreed
  loops := loops

/-- Before anything was freed the descriptors are owned. -/
theorem freeLegal_of_unfreed {log : List DescEvent} (h : ∀ id, .free id ∉ log) : FreeLegal log := by
  induction log with
  | nil => trivial
  | cons event earlier ih =>
    exact ⟨fun hmem => h _ (List.mem_cons_of_mem _ hmem),
      ih fun id hmem => h id (List.mem_cons_of_mem _ hmem)⟩

/-- The descriptors linked on some list are pairwise distinct. -/
theorem Unreleased.linked_nodup {s : ReleaseState} (h : Unreleased s) :
    (s.linked.map (·.id)).Nodup :=
  (List.nodup_append.mp (List.nodup_append.mp h.nodup).1).2.1

/-- The invariant implies the property. -/
theorem Unreleased.owned {s : ReleaseState} (h : Unreleased s) : DescriptorsOwned s :=
  ⟨freeLegal_of_unfreed h.unfreed, h.linked_nodup⟩

/-- Client calls move descriptors forward and number the new ones. -/
theorem client_unreleased {s : ReleaseState} (h : Unreleased s) (call : ClientCall) :
    Unreleased (s.client call) := by
  unfold ReleaseState.client
  obtain heq | ⟨sdesc, hfresh, -, heq⟩ | ⟨sdesc, cookie, callback, hmem, heq⟩ | ⟨-, heq⟩ | ⟨_, heq⟩ :=
    clientCall_cases s.dma call <;>
    rw [heq]
  · exact ⟨h.nodup, h.bound, h.held, h.unfreed, h.loops⟩
  · -- The new descriptor has the next number.
    refine ⟨?_, ?_, h.held, h.unfreed, h.loops⟩
    · change (sdesc.id :: s.places).Nodup
      rw [hfresh]
      exact List.nodup_cons.mpr ⟨fun hmem => Nat.lt_irrefl _ (h.bound _ hmem), h.nodup⟩
    · change ∀ id ∈ sdesc.id :: s.places, id < s.dma.fresh + 1
      rw [hfresh]
      exact List.forall_mem_cons.mpr
        ⟨Nat.lt_succ_self _, fun id hid => Nat.lt_succ_of_lt (h.bound id hid)⟩
  · refine h.of_perm (List.perm_iff_count.mpr fun x => ?_) rfl h.held h.unfreed h.loops
    have hperm := ((List.perm_cons_erase hmem).map (·.id)).count_eq x
    simp only [ReleaseState.places, ReleaseState.linked, SoftDmaChan.linked, List.map_cons,
      List.map_append, List.map_nil, List.count_append, List.count_cons, List.count_nil] at hperm ⊢
    omega
  · refine h.of_perm (List.perm_iff_count.mpr fun x => ?_) rfl ?_ h.unfreed h.loops
    · simp only [softDmaIssuePending, ReleaseState.places, ReleaseState.linked, SoftDmaChan.linked,
        List.map_append, List.map_nil, List.count_append, List.count_nil]
      omega
    · intro sdesc hthread
      have hmem := h.held sdesc hthread
      simp only [softDmaIssuePending, List.mem_append] at hmem ⊢
      tauto
  · exact ⟨h.nodup, h.bound, h.held, h.unfreed, h.loops⟩

/-- The thread frees nothing. -/
theorem free_notMem_threadEvents (s : SoftDmaState) (id : ℕ) : .free id ∉ threadEvents s := by
  unfold threadEvents
  split
  · simp
  · split <;> simp
  · split_ifs <;> simp
  · simp
  · simp

/-- A `list_del` by the thread does not move a call into or out of its loop body. -/
theorem freed_notMem_unlinkFromCalls {s : SoftDmaState} {calls : List ReleaseCall}
    (h : ∀ sdesc rest, .freed sdesc rest ∉ calls) (sdesc : SoftDmaDesc) (rest : List SoftDmaDesc) :
    .freed sdesc rest ∉ unlinkFromCalls s calls := by
  unfold unlinkFromCalls
  split
  · intro hmem
    obtain ⟨call, hcall, heq⟩ := List.mem_map.mp hmem
    cases call with
    | freed last rest' => exact h last rest' hcall
    | halting | joining | splicing | walking | returned => cases heq
  · exact h sdesc rest

/-- Copying leaves every descriptor where it is. -/
theorem copying_unreleased {s t : ReleaseState} (h : Unreleased s) {sdesc : SoftDmaDesc}
    (hthread : s.dma.thread = .copying sdesc) (hnew : t.dma.thread = .copied sdesc)
    (hprepared : t.dma.prepared = s.dma.prepared) (hlinked : t.dma.chan.linked = s.dma.chan.linked)
    (hissued : t.dma.chan.issued = s.dma.chan.issued) (hfresh : t.dma.fresh = s.dma.fresh)
    (hcalls : t.calls = s.calls) (hunfreed : ∀ id, .free id ∉ t.log) : Unreleased t := by
  refine h.of_perm (.of_eq ?_) hfresh ?_ hunfreed (hcalls ▸ h.loops)
  · simp [ReleaseState.places, ReleaseState.linked, hprepared, hlinked, hcalls, hthread, hnew,
      ThreadState.loose]
  · intro sdesc' hsdesc
    obtain rfl : sdesc = sdesc' := by simpa [hnew] using hsdesc
    rw [hissued, hcalls]
    exact h.held sdesc (.inl hthread)

/-- The thread moves descriptors between their places. -/
theorem advance_unreleased {s : ReleaseState} (h : Unreleased s) {dma : SoftDmaState}
    (hdma : softDmaThreadFn s.dma = some dma) : Unreleased (s.advance dma) := by
  have hunfreed : ∀ id, .free id ∉ (s.advance dma).log := by
    intro id hmem
    rcases List.mem_append.mp hmem with hmem | hmem
    · exact free_notMem_threadEvents s.dma id hmem
    · exact h.unfreed id hmem
  have hloops := freed_notMem_unlinkFromCalls (s := s.dma) h.loops
  obtain ⟨hthread, rfl⟩ | ⟨hthread, -, rfl⟩ | ⟨first, rest, hthread, hsubmitted, rfl⟩ |
    ⟨sdesc, hthread, -, rfl⟩ | ⟨sdesc, hthread, -, rfl⟩ | ⟨sdesc, hthread, rfl⟩ |
    ⟨sdesc, hthread, rfl⟩ := softDmaThreadFn_cases hdma
  · refine h.of_perm (.of_eq ?_) rfl ?_ hunfreed hloops
    · simp [ReleaseState.advance, ReleaseState.places, ReleaseState.linked, unlinkFromCalls,
        hthread, ThreadState.loose]
    · simp [ReleaseState.advance]
  · refine h.of_perm (.of_eq ?_) rfl ?_ hunfreed hloops
    · simp [ReleaseState.advance, ReleaseState.places, ReleaseState.linked, unlinkFromCalls,
        hthread, ThreadState.loose]
    · simp [ReleaseState.advance]
  · refine h.of_perm (List.perm_iff_count.mpr fun x => ?_) rfl ?_ hunfreed hloops
    · simp only [ReleaseState.advance, ReleaseState.places, ReleaseState.linked,
        SoftDmaChan.linked, unlinkFromCalls, hthread, hsubmitted, ThreadState.loose,
        List.map_cons, List.map_append, List.map_nil, List.count_append, List.count_cons,
        List.count_nil]
      omega
    · intro sdesc hsdesc
      obtain rfl : { first with active := true } = sdesc := by
        simpa [ReleaseState.advance] using hsdesc
      simp [ReleaseState.advance]
  · exact copying_unreleased h hthread rfl rfl rfl rfl rfl (by
      simp [ReleaseState.advance, unlinkFromCalls, hthread]) hunfreed
  · exact copying_unreleased h hthread rfl rfl rfl rfl rfl (by
      simp [ReleaseState.advance, unlinkFromCalls, hthread]) hunfreed
  · -- The descriptor is still linked on `issued` or on the list of a call that spliced it away.
    have hnodup : (s.dma.chan.issued ++ heads s.calls).Nodup := by
      have hlinked := h.linked_nodup.of_map
      simp only [ReleaseState.linked, SoftDmaChan.linked, List.append_assoc] at hlinked
      refine hlinked.sublist (.trans ?_ (List.sublist_append_right _ _))
      exact (List.sublist_append_right _ _).append_left _
    have hperm := (listDel_perm (h.held sdesc (.inr hthread)) hnodup).map (·.id)
    refine h.of_perm (List.perm_iff_count.mpr fun x => ?_) rfl ?_ hunfreed hloops
    · have hcount := hperm.count_eq x
      simp only [ReleaseState.advance, ReleaseState.places, ReleaseState.linked,
        SoftDmaChan.linked, unlinkFromCalls, hthread, ThreadState.loose, List.map_cons,
        List.map_append, List.count_append, List.count_cons, List.count_nil] at hcount ⊢
      omega
    · simp [ReleaseState.advance]
  · refine h.of_perm (List.perm_iff_count.mpr fun x => ?_) rfl ?_ hunfreed hloops
    · simp only [ReleaseState.advance, ReleaseState.places, ReleaseState.linked,
        SoftDmaChan.linked, unlinkFromCalls, hthread, ThreadState.loose, List.map_cons,
        List.map_append, List.map_nil, List.count_append, List.count_cons, List.count_nil]
      omega
    · simp [ReleaseState.advance]

/-- The thread keeps the invariant beside the releasing calls. -/
theorem threadStep_unreleased {s t : ReleaseState} (h : Unreleased s) (ht : threadStep s = some t) :
    Unreleased t := by
  unfold threadStep at ht
  split_ifs at ht
  · obtain rfl := Option.some.inj ht
    exact ⟨h.nodup, h.bound, h.held, h.unfreed, h.loops⟩
  · obtain ⟨dma, hdma, rfl⟩ := Option.map_eq_some_iff.mp ht
    exact advance_unreleased h hdma

/-- A new call has nothing on its own list. -/
theorem append_unreleased {s t : ReleaseState} (h : Unreleased s) {call : ReleaseCall}
    (hdma : t.dma = s.dma) (hcalls : t.calls = s.calls ++ [call]) (hlog : t.log = s.log)
    (hhead : call.head = []) (hcall : ∀ sdesc rest, call ≠ .freed sdesc rest) : Unreleased t := by
  have hheads : heads t.calls = heads s.calls := hcalls ▸ heads_append_singleton s.calls hhead
  refine h.of_perm (.of_eq ?_) (by rw [hdma]) ?_ (by rw [hlog]; exact h.unfreed) ?_
  · simp [ReleaseState.places, ReleaseState.linked, hdma, hheads]
  · rw [hdma, hheads]
    exact h.held
  · intro sdesc rest hmem
    rw [hcalls] at hmem
    rcases List.mem_append.mp hmem with hmem | hmem
    · exact h.loops sdesc rest hmem
    · exact hcall sdesc rest (List.mem_singleton.mp hmem).symm

/-- A call that moves on with the same list of its own keeps the invariant. -/
theorem setCall_unreleased {s t : ReleaseState} (h : Unreleased s) (hdma : t.dma = s.dma)
    (hcalls : t.calls = s.calls) (hlog : t.log = s.log) {i : ℕ} {old call : ReleaseCall}
    (hold : s.calls[i]? = some old) (hhead : call.head = old.head)
    (hcall : ∀ sdesc rest, call ≠ .freed sdesc rest) : Unreleased (t.setCall i call) := by
  have hheads : heads (s.calls.set i call) ~ heads s.calls :=
    (List.perm_append_left_iff old.head).mp (hhead ▸ heads_set_perm hold call)
  refine h.of_perm ?_ (by rw [← hdma]; rfl) ?_ (fun id hmem => h.unfreed id (hlog ▸ hmem)) ?_
  · have hlinked := (hheads.append_left s.dma.chan.linked).map (·.id)
    simp only [ReleaseState.setCall, ReleaseState.places, ReleaseState.linked, hdma, hcalls]
    exact (hlinked.append_left _).append_right _
  · intro sdesc hsdesc
    have hmem := h.held sdesc (by simpa [ReleaseState.setCall, hdma] using hsdesc)
    simp only [ReleaseState.setCall, hdma, hcalls]
    exact (hheads.append_left _).mem_iff.mpr hmem
  · intro sdesc rest hmem
    simp only [ReleaseState.setCall, hcalls] at hmem
    rcases List.mem_or_eq_of_mem_set hmem with hmem | heq
    · exact h.loops sdesc rest hmem
    · exact hcall sdesc rest heq.symm

/-- The splices move every linked descriptor onto the call's own list. -/
theorem splice_unreleased {s : ReleaseState} (h : Unreleased s) {i : ℕ}
    (hold : s.calls[i]? = some .splicing) : Unreleased (s.splice i) := by
  have hheads : heads (s.calls.set i (.walking s.dma.chan.linked)) ~ s.linked :=
    heads_set_perm hold (.walking s.dma.chan.linked)
  refine h.of_perm ?_ rfl ?_ h.unfreed ?_
  · exact ((hheads.map (·.id)).append_left _).append_right _
  · intro sdesc hsdesc
    refine List.mem_append_right _ (hheads.mem_iff.mpr ?_)
    have hmem := h.held sdesc hsdesc
    simp only [ReleaseState.linked, SoftDmaChan.linked, List.mem_append] at hmem ⊢
    tauto
  · intro sdesc rest hmem
    rcases List.mem_or_eq_of_mem_set hmem with hmem | heq
    · exact h.loops sdesc rest hmem
    · cases heq

/-- A call that frees nothing keeps the invariant. -/
theorem releaseStep_unreleased {s t : ReleaseState} (h : Unreleased s) {i : ℕ} {old : ReleaseCall}
    (hold : s.calls[i]? = some old) (ht : releaseStep s i old = some t)
    (hguard : ∀ head, old = .walking head → head = []) : Unreleased t := by
  cases old with
  | halting =>
    obtain rfl := Option.some.inj ht
    split
    · exact setCall_unreleased (t := { s with shouldStop := true }) h rfl rfl rfl hold rfl nofun
    · exact setCall_unreleased h rfl rfl rfl hold rfl nofun
  | joining =>
    simp only [releaseStep] at ht
    split_ifs at ht
    obtain rfl := Option.some.inj ht
    exact setCall_unreleased (t := { s with threadExists := false }) h rfl rfl rfl hold rfl nofun
  | splicing =>
    obtain rfl := Option.some.inj ht
    exact splice_unreleased h hold
  | walking head =>
    obtain rfl := hguard head rfl
    obtain rfl := Option.some.inj ht
    exact setCall_unreleased h rfl rfl rfl hold rfl nofun
  | freed sdesc rest => exact absurd (List.mem_of_getElem? hold) (h.loops sdesc rest)
  | returned => cases ht

/-- The first freeing alone harms nothing. -/
theorem descFree_owned {s : ReleaseState} (h : Unreleased s) {i : ℕ} {sdesc : SoftDmaDesc}
    {rest : List SoftDmaDesc} (hold : s.calls[i]? = some (.walking (sdesc :: rest))) :
    DescriptorsOwned (s.descFree i sdesc rest) := by
  refine ⟨⟨h.unfreed sdesc.id, freeLegal_of_unfreed h.unfreed⟩, ?_⟩
  have hheads : sdesc :: heads (s.calls.set i (.freed sdesc rest)) ~ heads s.calls :=
    (List.perm_append_left_iff rest).mp
      (List.perm_middle.trans (heads_set_perm hold (.freed sdesc rest)))
  have hnodup := ((hheads.append_left s.dma.chan.linked).map (·.id)).nodup_iff.mpr h.linked_nodup
  exact hnodup.sublist (((List.sublist_cons_self _ _).append_left _).map _)

/-- After a freeing the next step of the call reads what it freed. -/
theorem readNext_unowned {s : ReleaseState} {i : ℕ} {old : ReleaseCall}
    (hold : s.calls[i]? = some old) (sdesc : SoftDmaDesc) (rest : List SoftDmaDesc) :
    ¬ DescriptorsSafe (s.descFree i sdesc rest) := by
  intro hsafe
  have hi : i < s.calls.length := (List.getElem?_eq_some_iff.mp hold).1
  have hcall : (s.descFree i sdesc rest).calls[i]? = some (.freed sdesc rest) :=
    List.getElem?_set_self hi
  have hstep : releaseMachine.step (s.descFree i sdesc rest) (.advance i) =
      some ((s.descFree i sdesc rest).readNext i sdesc rest) := by
    simp only [releaseMachine, hcall, Option.bind_some]
    rfl
  exact (hsafe.next i _ hstep).legal.1 List.mem_cons_self

/-- Every step that frees nothing keeps the invariant. -/
theorem release_step_unreleased (s : ReleaseState) (label : ReleaseLabel) (t : ReleaseState)
    (h : Unreleased s) (ht : releaseMachine.step s label = some t) (hguard : NothingFreed s label) :
    Unreleased t := by
  cases label with
  | client call =>
    obtain rfl := Option.some.inj ht
    exact client_unreleased h call
  | thread => exact threadStep_unreleased h ht
  | terminateAll =>
    obtain rfl := Option.some.inj ht
    exact append_unreleased h rfl rfl rfl rfl nofun
  | freeChanResources =>
    obtain rfl := Option.some.inj ht
    exact append_unreleased h rfl rfl rfl rfl nofun
  | advance i =>
    obtain ⟨old, hold, ht⟩ := Option.bind_eq_some_iff.mp ht
    exact releaseStep_unreleased h hold ht fun head heq => hguard head (heq ▸ hold)

/-- A call that frees a descriptor stands on its first element and frees it. -/
theorem eq_descFree_of_not_nothingFreed {s t : ReleaseState} {label : ReleaseLabel}
    (ht : releaseMachine.step s label = some t) (hguard : ¬ NothingFreed s label) :
    ∃ i sdesc rest, label = .advance i ∧ s.calls[i]? = some (.walking (sdesc :: rest)) ∧
      t = s.descFree i sdesc rest := by
  cases label with
  | advance i =>
    simp only [NothingFreed, not_forall] at hguard
    obtain ⟨head, hold, hne⟩ := hguard
    obtain ⟨sdesc, rest, rfl⟩ := List.exists_cons_of_ne_nil hne
    refine ⟨i, sdesc, rest, rfl, hold, ?_⟩
    simp only [releaseMachine, hold, Option.bind_some] at ht
    exact (Option.some.inj ht).symm
  | client | thread | terminateAll | freeChanResources => exact absurd trivial hguard

/-- Before anything was freed no call is about to break the ownership. -/
theorem Unreleased.safe {s : ReleaseState} (h : Unreleased s) : DescriptorsSafe s := by
  refine ⟨h.owned, fun i t ht => ?_⟩
  by_cases hguard : NothingFreed s (.advance i)
  · exact (release_step_unreleased s _ t h ht hguard).owned
  · obtain ⟨j, sdesc, rest, _, hold, rfl⟩ := eq_descFree_of_not_nothingFreed ht hguard
    exact descFree_owned h hold

/-- In every interleaving of clients, thread and releasing calls, the descriptors stay owned, also
through one further step of any call, exactly when no call frees a descriptor. -/
theorem descriptorsSafe_iff_nothingFreed (mem : ℕ → UInt8) (labels : List ReleaseLabel) :
    releaseMachine.Always DescriptorsSafe (releaseStart mem) labels ↔
      releaseMachine.Guarded NothingFreed (releaseStart mem) labels := by
  refine releaseMachine.always_iff_guarded (fun s (hs : Unreleased s) => hs.safe)
    release_step_unreleased ?_ ?_ labels
  · intro s label t hs ht hguard
    obtain ⟨i, sdesc, rest, _, hold, rfl⟩ := eq_descFree_of_not_nothingFreed ht hguard
    exact readNext_unowned hold sdesc rest
  · refine ⟨List.nodup_nil, ?_, ?_, ?_, ?_⟩ <;> simp [releaseStart, softDmaAllocated,
      ReleaseState.places, ReleaseState.linked, SoftDmaChan.linked, heads, ThreadState.loose]

/-- One submitted descriptor and one termination: the loop frees it and reads its link. One that the
thread has just taken: the termination frees it and the thread copies it. -/
theorem descriptorsOwned_broken :
    (¬ releaseMachine.Always DescriptorsOwned (releaseStart fun _ => 0)
        [.client (.prepDmaMemcpy 0x2000 0x1000 64 0 true), .client (.submit 0 1 false),
          .terminateAll, .advance 0, .advance 0, .advance 0]) ∧
      ¬ releaseMachine.Always DescriptorsOwned (releaseStart fun _ => 0)
        [.client .issuePending, .client (.prepDmaMemcpy 0x2000 0x1000 64 0 true),
          .client (.submit 0 1 false), .thread, .thread, .terminateAll, .advance 0, .advance 0,
          .thread] := by
  constructor
  · intro h
    exact (h.of_reached _ (List.prefix_refl _) rfl).legal.1 List.mem_cons_self
  · intro h
    exact (h.of_reached _ (List.prefix_refl _) rfl).legal.1 List.mem_cons_self

end LinuxFunctionTest.SoftDma
