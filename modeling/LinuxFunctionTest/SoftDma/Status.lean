import LinuxFunctionTest.SoftDma.Termination

/-!
# What `soft_dma_tx_status` knows

The answer is read off the lists `issued` and `completed`: without a `txstate`, or when the cookie is
on neither list, it is `DMA_COMPLETE`. Submitted descriptors that no termination took away are asked
about here in every state that clients, thread and releasing calls reach. The main result says for
which calls the answer `DMA_COMPLETE` implies that the copy was made.
-/

namespace LinuxFunctionTest.SoftDma

/-- The loop over `issued` answers in progress when it meets the cookie. -/
theorem scanIssued_status (cookie : ℤ) (issued : List SoftDmaDesc) (t : TxStatus) :
    (issued.foldl (scanIssued cookie) t).status =
      if ∃ sdesc ∈ issued, sdesc.cookie = cookie then .dmaInProgress else t.status := by
  induction issued generalizing t with
  | nil => simp
  | cons sdesc rest ih =>
    rw [List.foldl_cons, ih]
    by_cases hcookie : sdesc.cookie = cookie <;> simp [scanIssued, hcookie]

/-- The loop over `completed` answers complete when it meets the cookie. -/
theorem scanCompleted_status (cookie : ℤ) (completed : List SoftDmaDesc) (t : TxStatus) :
    (completed.foldl (scanCompleted cookie) t).status =
      if ∃ sdesc ∈ completed, sdesc.cookie = cookie then .dmaComplete else t.status := by
  induction completed generalizing t with
  | nil => simp
  | cons sdesc rest ih =>
    rw [List.foldl_cons, ih]
    by_cases hcookie : sdesc.cookie = cookie <;> simp [scanCompleted, hcookie]

/-- A call with a `txstate` finds the cookie on `issued` and not on `completed`. -/
def FoundIssued (chan : SoftDmaChan) (cookie : ℤ) (txstate : Bool) : Prop :=
  txstate = true ∧ (∃ sdesc ∈ chan.issued, sdesc.cookie = cookie) ∧
    ∀ sdesc ∈ chan.completed, sdesc.cookie ≠ cookie

/-- Complete is the answer of every call that does not find the cookie on `issued` alone. -/
theorem softDmaTxStatus_complete_iff (chan : SoftDmaChan) (cookie : ℤ) (txstate : Bool) :
    (softDmaTxStatus chan cookie txstate).status = .dmaComplete ↔
      ¬ FoundIssued chan cookie txstate := by
  cases txstate with
  | false => simp [softDmaTxStatus, FoundIssued]
  | true =>
    simp only [softDmaTxStatus, if_true, scanCompleted_status, scanIssued_status, FoundIssued,
      true_and, ne_eq]
    by_cases hcompleted : ∃ sdesc ∈ chan.completed, sdesc.cookie = cookie
    · obtain ⟨sdesc, hmem, hcookie⟩ := hcompleted
      simp only [if_pos (show ∃ e ∈ chan.completed, e.cookie = cookie from ⟨sdesc, hmem, hcookie⟩),
        true_iff]
      exact fun h => h.2 sdesc hmem hcookie
    · rw [if_neg hcompleted]
      push Not at hcompleted
      by_cases hissued : ∃ sdesc ∈ chan.issued, sdesc.cookie = cookie
      · simp only [if_pos hissued, reduceCtorEq, false_iff, not_not]
        exact ⟨hissued, hcompleted⟩
      · simp only [if_neg hissued, true_iff]
        exact fun h => hissued h.1

/-- The interleavings of the channel, with the descriptors as they were submitted and those that a
termination took off the lists. -/
structure StatusState where
  release : ReleaseState
  submissions : List SoftDmaDesc
  terminated : List ℕ

/-- The descriptor a step submits, with the cookie it is given. -/
def submittedBy (s : ReleaseState) : ReleaseLabel → List SoftDmaDesc
  | .client (.submit id cookie callback) =>
    ((s.dma.prepared.find? (·.id = id)).map fun sdesc =>
      { sdesc with cookie := cookie, callback := callback }).toList
  | _ => []

/-- The descriptors a step takes off the lists to free them. -/
def terminatedBy (s : ReleaseState) : ReleaseLabel → List ℕ
  | .advance i =>
    match s.calls[i]? with
    | some .splicing => s.dma.chan.linked.map (·.id)
    | _ => []
  | _ => []

/-- Record what a step submits and terminates. -/
def StatusState.observe (s : StatusState) (label : ReleaseLabel) (t : ReleaseState) :
    StatusState :=
  ⟨t, submittedBy s.release label ++ s.submissions, terminatedBy s.release label ++ s.terminated⟩

/-- The interleavings of clients, thread and releasing calls, observed. -/
def statusMachine : Machine StatusState ReleaseLabel where
  step s label := (releaseMachine.step s.release label).map (s.observe label)

/-- A channel right after its resources were allocated. -/
def statusStart (mem : ℕ → UInt8) : StatusState := ⟨releaseStart mem, [], []⟩

/-- A complete answer about a descriptor that was submitted and not terminated means that it was
copied. -/
def StatusTruthful (s : StatusState) (sdesc : SoftDmaDesc) (txstate : Bool) : Prop :=
  (softDmaTxStatus s.release.dma.chan sdesc.cookie txstate).status = .dmaComplete →
    sdesc.id ∈ s.release.dma.copied

/-- The descriptor whose copy the thread is done with. -/
def ThreadState.done : ThreadState → List ℕ
  | .copied sdesc | .unlinked sdesc => [sdesc.id]
  | _ => []

/-- The descriptors past their copy: on `completed`, or still held by the thread. -/
def SoftDmaState.pastCopy (s : SoftDmaState) : List ℕ :=
  s.chan.completed.map (·.id) ++ s.thread.done

/-- The descriptor that the thread is about to copy. -/
def ThreadState.copies : ThreadState → List SoftDmaDesc
  | .copying sdesc => [sdesc]
  | _ => []

/-- No descriptor that is still to be copied is empty. -/
def CopiesNonempty (s : SoftDmaState) : Prop :=
  ∀ sdesc ∈ s.prepared ++ s.chan.submitted ++ s.thread.copies, 0 < sdesc.len

/-- Client calls prepare no empty descriptor. -/
theorem clientCall_copiesNonempty {s : SoftDmaState} (h : CopiesNonempty s) (call : ClientCall) :
    CopiesNonempty (clientCall s call) := by
  obtain heq | ⟨sdesc, -, hlen, heq⟩ | ⟨found, cookie, callback, hfound, heq⟩ | ⟨-, heq⟩ | ⟨_, heq⟩ :=
    clientCall_cases s call <;>
    rw [heq]
  · exact h
  · exact List.forall_mem_cons.mpr ⟨hlen, h⟩
  · intro sdesc hmem
    simp only [List.mem_append, List.mem_singleton] at hmem
    rcases hmem with (hmem | hmem | rfl) | hmem
    · exact h sdesc (by simp [List.mem_of_mem_erase hmem])
    · exact h sdesc (by simp [hmem])
    · exact h found (by simp [hfound])
    · exact h sdesc (by simp [hmem])
  · intro sdesc hmem
    apply h sdesc
    simp only [softDmaIssuePending, List.append_nil, List.mem_append] at hmem ⊢
    tauto
  · exact h

/-- Client calls neither copy nor complete. -/
theorem clientCall_pastCopy (s : SoftDmaState) (call : ClientCall) :
    (clientCall s call).pastCopy = s.pastCopy ∧ (clientCall s call).copied = s.copied := by
  obtain h | ⟨_, _, _, h⟩ | ⟨_, _, _, _, h⟩ | ⟨_, h⟩ | ⟨_, h⟩ := clientCall_cases s call <;>
  · rw [h]
    exact ⟨rfl, rfl⟩

/-- What a step of the thread copies is what it adds to the descriptors past their copy. -/
theorem softDmaThreadFn_pastCopy {s t : SoftDmaState} (h : CopiesNonempty s)
    (ht : softDmaThreadFn s = some t) :
    CopiesNonempty t ∧ ∃ new, t.copied = new ++ s.copied ∧ t.pastCopy = s.pastCopy ++ new := by
  have hcopies : ∀ {u : SoftDmaState}, u.prepared = s.prepared →
      u.chan.submitted <:+ s.chan.submitted → u.thread.copies = [] → CopiesNonempty u := by
    intro u hprepared hsubmitted hthread sdesc hmem
    refine h sdesc (List.mem_append_left _ ?_)
    rw [hprepared, hthread, List.append_nil] at hmem
    exact (List.mem_append.mp hmem).elim (List.mem_append_left _)
      fun hmem => List.mem_append_right _ (hsubmitted.subset hmem)
  obtain ⟨hthread, rfl⟩ | ⟨hthread, -, rfl⟩ | ⟨sdesc, rest, hthread, hsubmitted, rfl⟩ |
    ⟨sdesc, hthread, -, rfl⟩ | ⟨sdesc, hthread, hlen, rfl⟩ | ⟨sdesc, hthread, rfl⟩ |
    ⟨sdesc, hthread, rfl⟩ := softDmaThreadFn_cases ht
  · exact ⟨hcopies rfl (List.suffix_refl _) rfl, [], rfl, by
      simp [SoftDmaState.pastCopy, hthread, ThreadState.done]⟩
  · exact ⟨hcopies rfl (List.suffix_refl _) rfl, [], rfl, by
      simp [SoftDmaState.pastCopy, hthread, ThreadState.done]⟩
  · refine ⟨fun d hmem => ?_, [], rfl, by
      simp [SoftDmaState.pastCopy, hthread, ThreadState.done]⟩
    simp only [ThreadState.copies, List.mem_append, List.mem_singleton] at hmem
    rcases hmem with (hmem | hmem) | rfl
    · exact h d (by simp [hmem])
    · exact h d (by simp [hsubmitted, hmem])
    · exact h sdesc (by simp [hsubmitted])
  · exact ⟨hcopies rfl (List.suffix_refl _) rfl, [sdesc.id], rfl, by
      simp [SoftDmaState.pastCopy, hthread, ThreadState.done]⟩
  · have hpos := h sdesc (by simp [hthread, ThreadState.copies])
    omega
  · exact ⟨hcopies rfl (List.suffix_refl _) rfl, [], rfl, by
      simp [SoftDmaState.pastCopy, hthread, ThreadState.done]⟩
  · exact ⟨hcopies rfl (List.suffix_refl _) rfl, [], rfl, by
      simp [SoftDmaState.pastCopy, hthread, ThreadState.done]⟩

/-- The channel with its lists spliced away. -/
def SoftDmaState.emptied (s : SoftDmaState) : SoftDmaState :=
  { s with chan := { s.chan with submitted := [], issued := [], completed := [] } }

/-- What a step does to the channel: a client call, a step of the thread, the splice of a call that
terminates everything linked, or nothing. -/
theorem release_step_dma {s t : ReleaseState} {label : ReleaseLabel}
    (ht : releaseMachine.step s label = some t) :
    (∃ call, t.dma = clientCall s.dma call) ∨ softDmaThreadFn s.dma = some t.dma ∨
      (t.dma = s.dma.emptied ∧ terminatedBy s label = s.dma.chan.linked.map (·.id)) ∨
      t.dma = s.dma := by
  cases label with
  | client call =>
    obtain rfl := Option.some.inj ht
    exact .inl ⟨call, rfl⟩
  | thread =>
    replace ht : threadStep s = some t := ht
    unfold threadStep at ht
    split_ifs at ht
    · obtain rfl := Option.some.inj ht
      exact .inr (.inr (.inr rfl))
    · obtain ⟨dma, hdma, rfl⟩ := Option.map_eq_some_iff.mp ht
      exact .inr (.inl hdma)
  | terminateAll | freeChanResources =>
    obtain rfl := Option.some.inj ht
    exact .inr (.inr (.inr rfl))
  | advance i =>
    obtain ⟨call, hcall, ht⟩ := Option.bind_eq_some_iff.mp ht
    cases call with
    | halting =>
      obtain rfl := Option.some.inj ht
      refine .inr (.inr (.inr ?_))
      split <;> rfl
    | joining =>
      simp only [releaseStep] at ht
      split_ifs at ht
      obtain rfl := Option.some.inj ht
      exact .inr (.inr (.inr rfl))
    | splicing =>
      obtain rfl := Option.some.inj ht
      exact .inr (.inr (.inl ⟨rfl, by simp [terminatedBy, hcall]⟩))
    | walking head =>
      cases head <;>
      · obtain rfl := Option.some.inj ht
        exact .inr (.inr (.inr rfl))
    | freed sdesc rest =>
      obtain rfl := Option.some.inj ht
      exact .inr (.inr (.inr rfl))
    | returned => cases ht

/-- Exactly the copied descriptors are past their copy, terminated ones aside. -/
structure CopiesTraced (s : SoftDmaState) (terminated : List ℕ) : Prop where
  nonempty : CopiesNonempty s
  found : ∀ id ∈ s.copied, id ∈ terminated ∨ id ∈ s.pastCopy
  made : ∀ id ∈ s.pastCopy, id ∈ s.copied

/-- Terminating more descriptors says less about them. -/
theorem CopiesTraced.append {s : SoftDmaState} {terminated : List ℕ} (h : CopiesTraced s terminated)
    (more : List ℕ) : CopiesTraced s (more ++ terminated) :=
  ⟨h.nonempty, fun id hid => (h.found id hid).imp_left (List.mem_append_right _), h.made⟩

/-- Client calls keep track of the copies. -/
theorem clientCall_traced {s : SoftDmaState} {terminated : List ℕ} (h : CopiesTraced s terminated)
    (call : ClientCall) : CopiesTraced (clientCall s call) terminated := by
  obtain ⟨hpast, hcopied⟩ := clientCall_pastCopy s call
  exact ⟨clientCall_copiesNonempty h.nonempty call, hpast ▸ hcopied ▸ h.found,
    hpast ▸ hcopied ▸ h.made⟩

/-- The thread keeps track of the copies. -/
theorem softDmaThreadFn_traced {s t : SoftDmaState} {terminated : List ℕ}
    (h : CopiesTraced s terminated) (ht : softDmaThreadFn s = some t) :
    CopiesTraced t terminated := by
  obtain ⟨hnonempty, new, hcopied, hpast⟩ := softDmaThreadFn_pastCopy h.nonempty ht
  refine ⟨hnonempty, fun id hid => ?_, fun id hid => ?_⟩
  · rw [hcopied] at hid
    rw [hpast]
    rcases List.mem_append.mp hid with hid | hid
    · exact .inr (List.mem_append_right _ hid)
    · exact (h.found id hid).imp_right (List.mem_append_left _)
  · rw [hpast] at hid
    rw [hcopied]
    rcases List.mem_append.mp hid with hid | hid
    · exact List.mem_append_right _ (h.made id hid)
    · exact List.mem_append_left _ hid

/-- The splice terminates everything that is completed. -/
theorem emptied_traced {s : SoftDmaState} {terminated : List ℕ} (h : CopiesTraced s terminated) :
    CopiesTraced s.emptied (s.chan.linked.map (·.id) ++ terminated) := by
  refine ⟨fun sdesc hmem => ?_, fun id hid => ?_, fun id hid => ?_⟩
  · refine h.nonempty sdesc ?_
    simp only [SoftDmaState.emptied, List.append_nil, List.mem_append] at hmem ⊢
    tauto
  · rcases h.found id hid with hid | hid
    · exact .inl (List.mem_append_right _ hid)
    rcases List.mem_append.mp hid with hid | hid
    · refine .inl (List.mem_append_left _ ?_)
      simp only [SoftDmaChan.linked, List.map_append, List.mem_append]
      exact .inl (.inl hid)
    · exact .inr (List.mem_append_right _ hid)
  · refine h.made id (List.mem_append_right _ ?_)
    simpa [SoftDmaState.pastCopy, SoftDmaState.emptied] using hid

/-- Every step keeps track of the copies. -/
theorem status_step_traced (s : StatusState) (label : ReleaseLabel) (t : StatusState)
    (h : CopiesTraced s.release.dma s.terminated) (ht : statusMachine.step s label = some t) :
    CopiesTraced t.release.dma t.terminated := by
  obtain ⟨release, hrelease, rfl⟩ := Option.map_eq_some_iff.mp ht
  change CopiesTraced release.dma (terminatedBy s.release label ++ s.terminated)
  obtain ⟨call, hdma⟩ | hdma | ⟨hdma, hsplice⟩ | hdma := release_step_dma hrelease
  · exact hdma ▸ (clientCall_traced h call).append _
  · exact (softDmaThreadFn_traced h hdma).append _
  · exact hdma ▸ hsplice ▸ emptied_traced h
  · exact hdma ▸ h.append _

/-- In every reachable state, for every descriptor that was submitted and not terminated, a complete
answer means that it was copied exactly when the thread is past its copy, or the call finds its
cookie on `issued` alone. -/
theorem statusTruthful_iff (mem : ℕ → UInt8) (labels : List ReleaseLabel) :
    statusMachine.Always
      (fun s => ∀ sdesc ∈ s.submissions, sdesc.id ∉ s.terminated → ∀ txstate,
        (StatusTruthful s sdesc txstate ↔
          sdesc.id ∈ s.release.dma.pastCopy ∨
            FoundIssued s.release.dma.chan sdesc.cookie txstate))
      (statusStart mem) labels := by
  have hinit : CopiesTraced (statusStart mem).release.dma (statusStart mem).terminated := by
    refine ⟨?_, ?_, ?_⟩ <;> simp [statusStart, releaseStart, softDmaAllocated, CopiesNonempty,
      SoftDmaState.pastCopy, ThreadState.copies, ThreadState.done]
  refine (statusMachine.always_of_step status_step_traced hinit labels).mono _ ?_
  intro s hs sdesc _ hterminated txstate
  have hcopied : sdesc.id ∈ s.release.dma.copied ↔ sdesc.id ∈ s.release.dma.pastCopy :=
    ⟨fun hid => (hs.found _ hid).resolve_left hterminated, hs.made _⟩
  rw [StatusTruthful, softDmaTxStatus_complete_iff, hcopied]
  tauto

/-- A descriptor that waits on `submitted` is reported complete, and so is one that is being copied
when the call passes no `txstate`. -/
theorem statusTruthful_broken :
    (¬ statusMachine.Always
        (fun s => ∀ sdesc ∈ s.submissions, sdesc.id ∉ s.terminated → ∀ txstate,
          StatusTruthful s sdesc txstate) (statusStart fun _ => 0)
        [.client (.prepDmaMemcpy 0x2000 0x1000 64 0 true), .client (.submit 0 1 false)]) ∧
      ¬ statusMachine.Always
        (fun s => ∀ sdesc ∈ s.submissions, sdesc.id ∉ s.terminated →
          StatusTruthful s sdesc false) (statusStart fun _ => 0)
        [.client .issuePending, .client (.prepDmaMemcpy 0x2000 0x1000 64 0 true),
          .client (.submit 0 1 false), .thread, .thread] := by
  have hzero : (0 : ℕ) ∉ ([] : List ℕ) := List.not_mem_nil
  constructor
  · intro h
    have hend := h.of_reached _ (List.prefix_refl _) rfl
    exact hzero (hend _ List.mem_cons_self hzero true (by decide))
  · intro h
    have hend := h.of_reached _ (List.prefix_refl _) rfl
    exact hzero (hend _ List.mem_cons_self hzero (by decide))

end LinuxFunctionTest.SoftDma
