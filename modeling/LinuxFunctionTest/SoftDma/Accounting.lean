import LinuxFunctionTest.SoftDma.Channel
import Mathlib.Data.List.Perm.Basic

/-!
# Work accounting of the soft DMA channel

`soft_dma_issue_pending` moves the submitted descriptors to `issued` and counts one task, but the
thread takes its work from `submitted`. The counter therefore announces work that the thread cannot
find, and the descriptors a call has issued are never copied. The main result is that a sequence of
client calls keeps the accounting under every interleaving with the thread exactly when it never
issues anything.
-/

namespace LinuxFunctionTest.SoftDma

/-- Every wake-up found a descriptor, and while the thread is blocked every descriptor submitted
before some issue call was copied exactly once. -/
structure Accounted (s : SoftDmaState) : Prop where
  finds : s.emptyWakes = 0
  done : s.thread = .waiting → s.chan.taskCount ≤ 0 → ∀ id ∈ s.promised, s.copied.count id = 1

/-- The state of a channel on which nothing was issued: the thread never left its first wait. -/
structure Unissued (s : SoftDmaState) : Prop where
  waiting : s.thread = .waiting
  idle : s.chan.taskCount = 0
  promised : s.promised = []
  emptyWakes : s.emptyWakes = 0

/-- A client call other than an issue call leaves the counter and the promises alone. -/
theorem clientCall_unissued {s : SoftDmaState} (h : Unissued s) {call : ClientCall}
    (hcall : call ≠ .issuePending) : Unissued (clientCall s call) := by
  obtain heq | ⟨_, _, _, heq⟩ | ⟨_, _, _, _, heq⟩ | ⟨hissue, -⟩ | ⟨_, heq⟩ := clientCall_cases s call
  · rwa [heq]
  · rw [heq]
    exact ⟨h.waiting, h.idle, h.promised, h.emptyWakes⟩
  · rw [heq]
    exact ⟨h.waiting, h.idle, h.promised, h.emptyWakes⟩
  · exact absurd hissue hcall
  · rw [heq]
    exact ⟨h.waiting, h.idle, h.promised, h.emptyWakes⟩

/-- The thread is blocked while nothing was issued. -/
theorem softDmaThreadFn_unissued {s : SoftDmaState} (h : Unissued s) :
    softDmaThreadFn s = none := by
  simp [softDmaThreadFn, h.waiting, h.idle]

/-- Without an issue call every state of every interleaving is accounted. -/
theorem accounted_of_unissued {s : SoftDmaState} (hs : Unissued s) (labels : List SoftDmaStep)
    (hcalls : ClientCall.issuePending ∉ SoftDmaStep.calls labels) :
    softDmaMachine.Always Accounted s labels := by
  have hgood : Accounted s := ⟨hs.emptyWakes, fun _ _ id hid => by simp [hs.promised] at hid⟩
  induction labels generalizing s with
  | nil => exact hgood
  | cons label rest ih =>
    refine ⟨hgood, fun t ht => ?_⟩
    cases label with
    | client call =>
      obtain rfl := Option.some.inj ht
      have hne : call ≠ .issuePending := fun heq => hcalls (heq ▸ List.mem_cons_self)
      have ht := clientCall_unissued hs hne
      exact ih ht (fun hmem => hcalls (List.mem_cons_of_mem _ hmem))
        ⟨ht.emptyWakes, fun _ _ id hid => by simp [ht.promised] at hid⟩
    | thread =>
      change softDmaThreadFn s = some t at ht
      rw [softDmaThreadFn_unissued hs] at ht
      exact absurd ht (by simp)

/-- Client calls never lower the counter. -/
theorem clientCall_taskCount (s : SoftDmaState) (call : ClientCall) :
    s.chan.taskCount ≤ (clientCall s call).chan.taskCount := by
  have hcount : (clientCall s call).chan.taskCount = s.chan.taskCount ∨
      (clientCall s call).chan.taskCount = s.chan.taskCount + 1 := by
    obtain heq | ⟨_, _, _, heq⟩ | ⟨_, _, _, _, heq⟩ | ⟨-, heq⟩ | ⟨_, heq⟩ := clientCall_cases s call <;>
      rw [heq]
    · exact .inl rfl
    · exact .inl rfl
    · exact .inl rfl
    · exact .inr rfl
    · exact .inl rfl
  omega

/-- A sequence of client calls alone leaves the thread in its wait and the counter nonnegative. -/
theorem clientCalls_waiting {s : SoftDmaState} (hwait : s.thread = .waiting)
    (hcount : 0 ≤ s.chan.taskCount) (calls : List ClientCall) :
    (calls.foldl clientCall s).thread = .waiting ∧
      0 ≤ (calls.foldl clientCall s).chan.taskCount := by
  induction calls generalizing s with
  | nil => exact ⟨hwait, hcount⟩
  | cons call rest ih =>
    exact ih ((clientCall_thread s call).1.trans hwait) (Int.le_trans hcount (clientCall_taskCount s call))

/-- Right after an issue call the waiting thread wakes up and finds no descriptor. -/
theorem issuePending_emptyWake {s : SoftDmaState} (hwait : s.thread = .waiting)
    (hcount : 0 ≤ s.chan.taskCount) :
    ∃ t, softDmaMachine.run s [.client .issuePending, .thread, .thread] = some t ∧
      t.emptyWakes = s.emptyWakes + 1 := by
  have hpos : 0 < s.chan.taskCount + 1 := by omega
  refine ⟨{ softDmaIssuePending s with thread := .waiting, emptyWakes := s.emptyWakes + 1 }, ?_, rfl⟩
  simp [Machine.run, softDmaMachine, clientCall, softDmaThreadFn, softDmaIssuePending, hwait, hpos]

/-- A sequence of client calls keeps the accounting under every interleaving with the thread
exactly when it issues nothing. -/
theorem softDma_accounted_iff_unissued (mem : ℕ → UInt8) (calls : List ClientCall) :
    (∀ labels, SoftDmaStep.calls labels = calls →
        softDmaMachine.Always Accounted (softDmaAllocated mem) labels) ↔
      ClientCall.issuePending ∉ calls := by
  constructor
  · intro h hmem
    obtain ⟨front, back, rfl⟩ := List.append_of_mem hmem
    -- The thread sleeps through the calls before the issue call and runs right after it.
    have hlabels : SoftDmaStep.calls (front.map SoftDmaStep.client ++
        [.client .issuePending, .thread, .thread] ++ back.map SoftDmaStep.client) =
          front ++ ClientCall.issuePending :: back := by
      simp [SoftDmaStep.calls, List.filterMap_append, List.filterMap_map]
    obtain ⟨hwait, hcount⟩ := clientCalls_waiting (s := softDmaAllocated mem) rfl (Int.le_refl _) front
    obtain ⟨t, hrun, hempty⟩ := issuePending_emptyWake hwait hcount
    have hreach : softDmaMachine.run (softDmaAllocated mem) (front.map SoftDmaStep.client ++
        [.client .issuePending, .thread, .thread]) = some t := by
      rw [Machine.run_append, run_clients]
      exact hrun
    have hgood := (h _ hlabels).of_reached _ (List.prefix_append _ _) hreach
    rw [hgood.finds] at hempty
    omega
  · rintro hno labels rfl
    exact accounted_of_unissued ⟨rfl, rfl, rfl, rfl⟩ labels hno

/-- One transfer submitted and issued: the thread wakes up and finds nothing. A second transfer
submitted in time is copied in the place of the first, which is lost. -/
theorem softDma_unaccounted :
    (¬ softDmaMachine.Always Accounted (softDmaAllocated fun _ => 0)
        [.client (.prepDmaMemcpy 0x2000 0x1000 64 0 true), .client (.submit 0 1 false),
          .client .issuePending, .thread, .thread]) ∧
      ¬ softDmaMachine.Always Accounted (softDmaAllocated fun _ => 0)
        [.client (.prepDmaMemcpy 0x2000 0x1000 64 0 true), .client (.submit 0 1 false),
          .client .issuePending, .client (.prepDmaMemcpy 0x4000 0x3000 64 0 true),
          .client (.submit 1 2 false), .thread, .thread, .thread, .thread, .thread] := by
  constructor
  · intro h
    exact absurd (h.of_reached _ (List.prefix_refl _) rfl).finds (by decide)
  · intro h
    have hlost := (h.of_reached _ (List.prefix_refl _) rfl).done rfl (by decide) 0 (by decide)
    exact absurd hlost (by decide)

/-- The descriptor the thread has still to copy. -/
def ThreadState.pending : ThreadState → List ℕ
  | .copying sdesc => [sdesc.id]
  | _ => []

/-- Where a descriptor can be before its fate is settled, and the two fates: copied by the thread
or found on `submitted` by an issue call. -/
def SoftDmaState.ledger (s : SoftDmaState) : List ℕ :=
  s.prepared.map (·.id) ++ s.chan.submitted.map (·.id) ++ s.thread.pending ++ s.copied ++ s.spliced

/-- Every allocated descriptor is in at most one place of the ledger, and no other is in it. -/
def Ledgered (s : SoftDmaState) : Prop :=
  ∀ id, s.ledger.count id ≤ if id < s.fresh then 1 else 0

/-- A step that allocates nothing keeps the ledger in order when it moves or drops entries. -/
theorem Ledgered.of_le {s t : SoftDmaState} (h : Ledgered s)
    (hle : ∀ id, t.ledger.count id ≤ s.ledger.count id) (hfresh : t.fresh = s.fresh) :
    Ledgered t := by
  intro id
  rw [hfresh]
  exact (hle id).trans (h id)

/-- Client calls keep the ledger in order. -/
theorem clientCall_ledgered {s : SoftDmaState} (h : Ledgered s) (call : ClientCall) :
    Ledgered (clientCall s call) := by
  obtain heq | ⟨sdesc, hfresh, -, heq⟩ | ⟨sdesc, cookie, callback, hmem, heq⟩ | ⟨-, heq⟩ | ⟨_, heq⟩ :=
    clientCall_cases s call <;>
    rw [heq]
  · exact h
  · intro id
    have hid := h id
    simp only [SoftDmaState.ledger, List.map_cons, List.count_append, List.count_cons, hfresh]
      at hid ⊢
    by_cases hid' : s.fresh = id
    · subst hid'
      simp only [lt_irrefl, if_false] at hid
      simp only [beq_self_eq_true, if_true, Nat.lt_succ_self]
      omega
    · have hiff : id < s.fresh + 1 ↔ id < s.fresh := by omega
      simp only [hiff, beq_iff_eq, hid', if_false]
      omega
  · refine h.of_le (fun x => ?_) rfl
    have hperm := ((List.perm_cons_erase hmem).map (·.id)).count_eq x
    simp only [SoftDmaState.ledger, List.map_cons, List.map_append, List.map_nil,
      List.count_append, List.count_cons, List.count_nil] at hperm ⊢
    omega
  · refine h.of_le (fun x => ?_) rfl
    simp only [softDmaIssuePending, SoftDmaState.ledger, List.count_append, List.map_nil,
      List.count_nil]
    omega
  · exact h

/-- The thread keeps the ledger in order. -/
theorem softDmaThreadFn_ledgered {s t : SoftDmaState} (h : Ledgered s)
    (ht : softDmaThreadFn s = some t) : Ledgered t := by
  obtain ⟨hthread, rfl⟩ | ⟨hthread, -, rfl⟩ | ⟨sdesc, rest, hthread, hsubmitted, rfl⟩ |
    ⟨sdesc, hthread, -, rfl⟩ | ⟨sdesc, hthread, -, rfl⟩ | ⟨sdesc, hthread, rfl⟩ |
    ⟨sdesc, hthread, rfl⟩ := softDmaThreadFn_cases ht
  · refine h.of_le (fun x => ?_) rfl
    simp [SoftDmaState.ledger, ThreadState.pending, hthread]
  · refine h.of_le (fun x => ?_) rfl
    simp [SoftDmaState.ledger, ThreadState.pending, hthread]
  · refine h.of_le (fun x => ?_) rfl
    simp only [SoftDmaState.ledger, ThreadState.pending, hthread, hsubmitted, List.map_cons,
      List.count_append, List.count_cons, List.count_nil]
    omega
  · refine h.of_le (fun x => ?_) rfl
    simp only [SoftDmaState.ledger, ThreadState.pending, hthread, List.count_append,
      List.count_cons, List.count_nil]
    omega
  · refine h.of_le (fun x => ?_) rfl
    simp only [SoftDmaState.ledger, ThreadState.pending, hthread, List.count_append,
      List.count_cons, List.count_nil]
    omega
  · refine h.of_le (fun x => ?_) rfl
    simp [SoftDmaState.ledger, ThreadState.pending, hthread]
  · refine h.of_le (fun x => ?_) rfl
    simp [SoftDmaState.ledger, ThreadState.pending, hthread]

/-- In every state of every interleaving, a descriptor was copied at most once, and never if an
issue call found it on `submitted`. -/
theorem softDma_spliced_not_copied (mem : ℕ → UInt8) (labels : List SoftDmaStep) :
    softDmaMachine.Always
      (fun s => ∀ id, s.copied.count id ≤ 1 ∧ (id ∈ s.spliced → id ∉ s.copied))
      (softDmaAllocated mem) labels := by
  have hstep : ∀ s label t, Ledgered s → softDmaMachine.step s label = some t → Ledgered t := by
    intro s label t hs ht
    cases label with
    | client call =>
      obtain rfl := Option.some.inj ht
      exact clientCall_ledgered hs call
    | thread => exact softDmaThreadFn_ledgered hs ht
  have hinit : Ledgered (softDmaAllocated mem) := fun id => by
    simp [SoftDmaState.ledger, softDmaAllocated, ThreadState.pending]
  apply (softDmaMachine.always_of_step hstep hinit labels).mono
  intro s hs id
  have hid := hs id
  have hone : s.ledger.count id ≤ 1 := hid.trans (by split <;> omega)
  simp only [SoftDmaState.ledger, List.count_append] at hone
  refine ⟨by omega, fun hspliced hcopied => ?_⟩
  have hleft := List.count_pos_iff.mpr hspliced
  have hright := List.count_pos_iff.mpr hcopied
  omega

end LinuxFunctionTest.SoftDma
