import LinuxFunctionTest.Library.Outline
import LinuxFunctionTest.VirtualPcie.ConnectionAssertions

/-!
# Consistency of the connection state

The assertions of the calls hold together along every run in which the two functions do not run
into each other: a connect must find the device unconnected and may not overlap another connect or a
disconnect, while disconnects may overlap each other. When no call is in progress, the device is
settled.
-/

namespace LinuxFunctionTest.VirtualPcie

/-- The flag tells whether the socket and both threads are set and exist, and no other socket or
thread exists. -/
structure Consistent (dev : Connection) : Prop where
  connected : dev.connected = true ↔
    (∃ s ∈ dev.sockets, dev.sock = some s) ∧
      (∃ t ∈ dev.rxThreads, dev.rxThread = some t.id) ∧
      ∃ t ∈ dev.txThreads, dev.txThread = some t.id
  sockets : dev.sockets.length ≤ 1 ∧ ∀ s ∈ dev.sockets, dev.sock = some s
  rxThreads : dev.rxThreads.length ≤ 1 ∧ ∀ t ∈ dev.rxThreads, dev.rxThread = some t.id
  txThreads : dev.txThreads.length ≤ 1 ∧ ∀ t ∈ dev.txThreads, dev.txThread = some t.id

/-- A connect that creates its socket finds none set and no other call active, and a disconnect that
begins to take the connection down finds no connect active. -/
def Serialized (s : VpciState) : VpciStep → Prop
  | .advance k ok => ∀ call, s.calls[k]? = some call →
      (call.pc = .connect .sockCreate → ok = true →
        s.dev.sock = none ∧ ∀ d ∈ s.calls, ¬ d.pc.Active) ∧
      (call.pc = .disconnect .timerDelete → ∀ d ∈ s.calls, ¬ d.pc.Building)
  | _ => True

instance (s : VpciState) (label : VpciStep) : Decidable (Serialized s label) :=
  match label with
  | .advance k ok =>
    match h : s.calls[k]? with
    | none => isTrue fun call hcall => absurd (h.symm.trans hcall) (by simp)
    | some call => decidable_of_iff
        ((call.pc = .connect .sockCreate → ok = true →
            s.dev.sock = none ∧ ∀ d ∈ s.calls, ¬ d.pc.Active) ∧
          (call.pc = .disconnect .timerDelete → ∀ d ∈ s.calls, ¬ d.pc.Building))
        (by simp [Serialized, h])
  | .ioctl _ => isTrue trivial
  | .work => isTrue trivial
  | .rxFail _ => isTrue trivial
  | .rxReturn _ => isTrue trivial
  | .txReturn _ => isTrue trivial

/-- The invariant of serialized runs. -/
structure Serial (s : VpciState) : Prop where
  outline : Outline CallHolds Apart s.dev s.calls
  settled : (∀ (k : ℕ) c, s.calls[k]? = some c → ¬ c.pc.Active) → Settled s.dev

/-- A settled device is consistent. -/
theorem Settled.consistent {dev : Connection} (h : Settled dev) : Consistent dev := by
  rcases h with rfl | ⟨s, r, t, rfl⟩ <;> constructor <;> simp

section Steps

variable {s : VpciState}

/-- A call that starts outside the two functions' bodies keeps the invariant. -/
theorem Serial.enter (h : Serial s) (c : Call) (hnew : CallHolds s.dev c) (hpc : ¬ c.pc.Active)
    (role : VpciRole) : Serial { s with role := role, calls := s.calls ++ [c] } where
  outline := h.outline.enter hnew fun d =>
    ⟨apart_of_inactive hpc d, (apart_of_inactive hpc d).symm⟩
  settled := by
    intro hnone
    apply h.settled
    intro k d hd
    refine hnone k d ?_
    rw [List.getElem?_append_left (List.getElem?_eq_some_iff.mp hd).1]
    exact hd

/-- A step of call `k` keeps the invariant if it reaches its next assertion, leaves the others theirs,
and leaves the device settled when it was the last active call. -/
theorem Serial.advance (h : Serial s) {k : ℕ} {call : Call} (hk : s.calls[k]? = some call) (pc : Pc)
    (dev' : Connection) (hnext : CallHolds dev' { call with pc := pc })
    (hfree : ∀ (j : ℕ) d, j ≠ k → s.calls[j]? = some d →
      CallHolds dev' d ∧ Apart { call with pc := pc } d)
    (hsettled : ¬ pc.Active → (∀ (j : ℕ) d, j ≠ k → s.calls[j]? = some d → ¬ d.pc.Active) →
      Settled dev') (role : VpciRole) (fresh : ℕ) :
    Serial ⟨dev', role, fresh, s.calls.set k { call with pc := pc }⟩ where
  outline := h.outline.advance hnext (fun j d hj hd => (hfree j d hj hd).1)
    fun j d hj hd => ⟨(hfree j d hj hd).2, (hfree j d hj hd).2.symm⟩
  settled := by
    intro hnone
    have hlt := (List.getElem?_eq_some_iff.mp hk).1
    refine hsettled (hnone k { call with pc := pc } ?_) ?_
    · simp [List.getElem?_set_self hlt]
    · intro j d hj hd
      refine hnone j d ?_
      rw [List.getElem?_set_ne hj.symm]
      exact hd

/-- A statement outside the two functions' bodies that leaves the device alone. -/
theorem Serial.idle (h : Serial s) {k : ℕ} {call : Call} (hk : s.calls[k]? = some call) (pc : Pc)
    (hbefore : ¬ call.pc.Active) (hafter : ¬ pc.Active)
    (hnext : CallHolds s.dev { call with pc := pc }) (role : VpciRole) (fresh : ℕ) :
    Serial ⟨s.dev, role, fresh, s.calls.set k { call with pc := pc }⟩ := by
  refine h.advance hk pc s.dev hnext ?_ ?_ role fresh
  · intro j d _ hd
    exact ⟨h.outline.holds j d hd, apart_of_inactive hafter d⟩
  · intro _ hothers
    apply h.settled
    intro j d hd
    by_cases hj : j = k
    · subst hj
      obtain rfl := Option.some.inj (hk.symm.trans hd)
      exact hbefore
    · exact hothers j d hj hd

/-- A statement of `vpci_net_connect` keeps the invariant. -/
theorem Serial.connect (h : Serial s) {k : ℕ} {call : Call} (hk : s.calls[k]? = some call)
    {pc : ConnectPc} (hpc : call.pc = .connect pc) {ok : Bool}
    (hguard : pc = .sockCreate → ok = true → s.dev.sock = none ∧ ∀ d ∈ s.calls, ¬ d.pc.Active)
    {dev' : Connection} {out : Outcome ConnectPc}
    (hs : vpciNetConnect s.dev s.fresh ok pc = some (dev', out)) (role : VpciRole) (fresh : ℕ) :
    Serial ⟨dev', role, fresh, s.calls.set k
      { call with pc := out.pc .connect (connectReturn call.caller) }⟩ := by
  have hcall := h.outline.holds k call hk
  have hown : ∀ id, call.caller ≠ .rxThread id :=
    hcall.not_rxThread (by simp [hpc, Pc.BeforeRxGone])
  by_cases hcreate : pc = .sockCreate
  · subst hcreate
    cases ok with
    | false =>
      obtain ⟨rfl, rfl⟩ := Prod.mk.inj (Option.some.inj hs)
      obtain ⟨hreturn, hidle⟩ := connectReturn_idle s.dev call.caller false
      have hbefore : ¬ call.pc.Active := by
        simp [hpc, Pc.Active, Pc.Building, Pc.Dismantling]
      exact h.idle hk _ hbefore hidle ⟨hreturn, fun id hid => absurd hid (hown id)⟩ role fresh
    | true =>
      obtain ⟨hnone, hothers⟩ := hguard rfl rfl
      obtain ⟨rfl, rfl⟩ := Prod.mk.inj (Option.some.inj hs)
      have hdown : Down s.dev := by
        have hsettled := h.settled fun j d hd => hothers d (List.mem_of_getElem? hd)
        rcases hsettled with hdown | ⟨x, r, t, hup⟩
        · exact hdown
        · rw [hup] at hnone
          exact absurd hnone (by simp)
      refine h.advance hk (.connect .kernelConnect) _ ⟨⟨s.fresh, ?_⟩, fun id hid =>
        absurd hid (hown id)⟩ ?_ ?_ role fresh
      · rw [hdown]
      · intro j d _ hd
        have hd' := hothers d (List.mem_of_getElem? hd)
        exact ⟨(h.outline.holds j d hd).of_inactive hd' fun _ _ => id,
          (apart_of_inactive hd' _).symm⟩
      · exact fun hidle => absurd (Or.inl (by simp [Pc.Building])) hidle
  · have hholds := hcall.pc
    rw [hpc] at hholds
    obtain ⟨hlive, hout⟩ := vpciNetConnect_spec hholds hcreate hs
    have hbuilding : call.pc.Building := by simpa [hpc, Pc.Building] using hcreate
    have hothers : ∀ (j : ℕ) d, j ≠ k → s.calls[j]? = some d → ¬ d.pc.Active := by
      intro j d hj hd hactive
      exact (h.outline.apart k j call d hk hd hj.symm).1 ⟨hbuilding, hactive⟩
    have hfree : ∀ (j : ℕ) d, j ≠ k → s.calls[j]? = some d → CallHolds dev' d ∧
        Apart { call with pc := out.pc .connect (connectReturn call.caller) } d := by
      intro j d hj hd
      have hd' := hothers j d hj hd
      exact ⟨(h.outline.holds j d hd).of_inactive hd' fun id _ => hlive id, (apart_of_inactive hd' _).symm⟩
    cases out with
    | goto pc' =>
      refine h.advance hk (.connect pc') dev' ⟨hout.2, fun id hid => absurd hid (hown id)⟩ hfree ?_
        role fresh
      exact fun hidle => absurd (Or.inl hout.1) hidle
    | ret ok' =>
      obtain ⟨hreturn, -⟩ := connectReturn_idle dev' call.caller ok'
      exact h.advance hk _ dev' ⟨hreturn, fun id hid => absurd hid (hown id)⟩ hfree (fun _ _ => hout)
        role fresh

/-- A statement of `vpci_net_disconnect` keeps the invariant. -/
theorem Serial.disconnect (h : Serial s) {k : ℕ} {call : Call} (hk : s.calls[k]? = some call)
    {pc : DisconnectPc} (hpc : call.pc = .disconnect pc)
    (hguard : pc = .timerDelete → ∀ d ∈ s.calls, ¬ d.pc.Building)
    {dev' : Connection} {out : Outcome DisconnectPc}
    (hs : vpciNetDisconnect s.dev pc = some (dev', out)) (role : VpciRole) (fresh : ℕ) :
    Serial ⟨dev', role, fresh, s.calls.set k
      { call with pc := out.pc .disconnect fun _ => disconnectReturn call.caller }⟩ := by
  have hcall := h.outline.holds k call hk
  by_cases hdelete : pc = .timerDelete
  · subst hdelete
    obtain ⟨rfl, rfl⟩ := Prod.mk.inj (Option.some.inj hs)
    have hbuilding := hguard rfl
    -- Another disconnect knows what is held; without one the device is settled.
    have hheld : Held s.dev := by
      by_cases hnone : ∀ (j : ℕ) d, s.calls[j]? = some d → ¬ d.pc.Active
      · exact (h.settled hnone).held
      · push Not at hnone
        obtain ⟨j, ⟨caller, pc'⟩, hd, hactive⟩ := hnone
        have hdismantling := hactive.resolve_left (hbuilding _ (List.mem_of_getElem? hd))
        cases pc' with
        | disconnect pc' => exact DisconnectPc.Holds.held (h.outline.holds j _ hd).pc hdismantling
        | connect pc' => exact False.elim hdismantling
        | workTest => exact False.elim hdismantling
        | roleNone => exact False.elim hdismantling
        | rxEnd => exact False.elim hdismantling
        | finished => exact False.elim hdismantling
    refine h.advance hk (.disconnect .checkTx) s.dev ⟨hheld, fun id hid =>
      ⟨(hcall.own id hid).1, trivial⟩⟩ ?_ ?_ role fresh
    · intro j d _ hd
      exact ⟨h.outline.holds j d hd, fun hboth => hboth.1,
        fun hboth => hbuilding d (List.mem_of_getElem? hd) hboth.1⟩
    · exact fun hidle => absurd (Or.inr (by simp [Pc.Dismantling])) hidle
  · have hholds := hcall.pc
    rw [hpc] at hholds
    obtain ⟨hsheds, hlive, hout⟩ := vpciNetDisconnect_spec hholds hdelete hs
    have hactive : call.pc.Active := Or.inr (by simpa [hpc, Pc.Dismantling] using hdelete)
    have hothers : ∀ (j : ℕ) d, j ≠ k → s.calls[j]? = some d → ¬ d.pc.Building := by
      intro j d hj hd hbuilding
      exact (h.outline.apart k j call d hk hd hj.symm).2 ⟨hbuilding, hactive⟩
    have hown : ∀ id, call.caller = .rxThread id → RxLive dev' id ∧
        ∃ pc', out = .goto pc' ∧ (Pc.disconnect pc').BeforeRxGone := by
      intro id hid
      obtain ⟨hrx, hbefore⟩ := hcall.own id hid
      exact ⟨hlive id hrx, vpciNetDisconnect_own hholds hdelete hrx (hpc ▸ hbefore) hs⟩
    cases out with
    | goto pc' =>
      refine h.advance hk (.disconnect pc') dev' ⟨hout.2, ?_⟩ ?_
        (fun hidle => absurd (Or.inr hout.1) hidle) role fresh
      · intro id hid
        obtain ⟨hrx, pc'', heq, hbefore⟩ := hown id hid
        obtain rfl := Outcome.goto.inj heq
        exact ⟨hrx, hbefore⟩
      · intro j d hj hd
        exact ⟨(h.outline.holds j d hd).sheds (hothers j d hj hd) hsheds fun id _ => hlive id,
          fun hboth => hboth.1, fun hboth => hothers j d hj hd hboth.1⟩
    | ret ok =>
      obtain ⟨hreturn, hidle⟩ := disconnectReturn_idle dev' call.caller
      refine h.advance hk _ dev' ⟨hreturn, ?_⟩ ?_ (fun _ _ => Or.inl hout) role fresh
      · intro id hid
        obtain ⟨-, pc'', heq, -⟩ := hown id hid
        exact absurd heq (by simp)
      · intro j d hj hd
        exact ⟨(h.outline.holds j d hd).sheds (hothers j d hj hd) hsheds fun id _ => hlive id,
          apart_of_inactive hidle d⟩

/-- A change of the device between the statements of the calls keeps the invariant if an active
connect keeps its assertion, what is held stays held, and a settled device stays settled. -/
theorem Serial.interfere (h : Serial s) {dev' : Connection}
    (hconnect : ∀ pc : ConnectPc, pc ≠ .sockCreate → pc.Holds s.dev → pc.Holds dev')
    (hsheds : Held s.dev → Sheds s.dev dev')
    (hlive : ∀ c ∈ s.calls, ∀ id, c.caller = .rxThread id → RxLive s.dev id → RxLive dev' id)
    (hsettled : Settled s.dev → Settled dev') : Serial { s with dev := dev' } where
  outline := by
    apply h.outline.interfere
    intro k c hc
    have hcall := h.outline.holds k c hc
    have hmem := hlive c (List.mem_of_getElem? hc)
    by_cases hactive : c.pc.Active
    · obtain ⟨caller, pc⟩ := c
      refine ⟨?_, fun id hid => ⟨hmem id hid (hcall.own id hid).1, (hcall.own id hid).2⟩⟩
      cases pc with
      | connect pc =>
        have hbuilding := hactive.resolve_right id
        exact hconnect pc hbuilding hcall.pc
      | disconnect pc =>
        have hdismantling := hactive.resolve_left id
        have hholds : pc.Holds s.dev := hcall.pc
        exact hholds.sheds (hsheds (hholds.held hdismantling))
      | workTest => trivial
      | roleNone => trivial
      | rxEnd => trivial
      | finished => trivial
    · exact hcall.of_inactive hactive hmem
  settled := fun hnone => hsettled (h.settled hnone)

/-- The return of a receive thread that was asked to stop keeps the invariant. -/
theorem Serial.rxReturn (h : Serial s) {id : ℕ} (hid : ⟨id, true⟩ ∈ s.dev.rxThreads)
    (hown : ¬ s.Handles id) :
    Serial { s with dev := { s.dev with rxThreads := s.dev.rxThreads.filter (·.id ≠ id) } } := by
  apply h.interfere
  · exact fun pc hpc hholds => hholds.rxReturn hpc hid
  · exact fun hheld => ⟨⟨hheld.sock, held_filter id hheld.rx, hheld.tx⟩, Or.inl rfl, Or.inl rfl,
      Or.inl rfl, fun hnone => hnone⟩
  · intro c hc id' hcaller hlive
    have hne : id' ≠ id := by
      rintro rfl
      exact hown ⟨c, hc, hcaller⟩
    obtain ⟨t, ht, rfl⟩ := List.mem_map.mp hlive
    exact List.mem_map.mpr ⟨t, List.mem_filter.mpr ⟨ht, by simpa using hne⟩, rfl⟩
  · rintro (hdown | ⟨x, r, t, hup⟩)
    · rw [hdown] at hid
      exact absurd hid (by simp)
    · rw [hup] at hid
      exact absurd hid (by simp)

/-- The return of a transmit thread that was asked to stop keeps the invariant. -/
theorem Serial.txReturn (h : Serial s) {id : ℕ} (hid : ⟨id, true⟩ ∈ s.dev.txThreads) :
    Serial { s with dev := { s.dev with txThreads := s.dev.txThreads.filter (·.id ≠ id) } } := by
  apply h.interfere
  · exact fun pc hpc hholds => absurd hid (hholds.not_txReturn hpc id)
  · exact fun hheld => ⟨⟨hheld.sock, hheld.rx, held_filter id hheld.tx⟩, Or.inl rfl, Or.inl rfl,
      Or.inl rfl, fun hnone => hnone⟩
  · exact fun _ _ _ _ hlive => hlive
  · rintro (hdown | ⟨x, r, t, hup⟩)
    · rw [hdown] at hid
      exact absurd hid (by simp)
    · rw [hup] at hid
      exact absurd hid (by simp)

end Steps

/-- Every step of a serialized run keeps the invariant. -/
theorem connectionMachine_step {s t : VpciState} {label : VpciStep} (h : Serial s)
    (hstep : connectionMachine.step s label = some t) (hguard : Serialized s label) : Serial t := by
  cases label with
  | ioctl cmd =>
    obtain rfl := Option.some.inj hstep
    have hioctl : ∀ pc : Pc, pc.Holds s.dev → CallHolds s.dev ⟨.ioctl, pc⟩ :=
      fun pc hpc => ⟨hpc, fun id hid => absurd hid (by simp)⟩
    cases cmd with
    | connect =>
      exact h.enter _ (hioctl (.connect .sockCreate) trivial)
        (by simp [Pc.Active, Pc.Building, Pc.Dismantling]) .rc
    | disconnect =>
      exact h.enter _ (hioctl (.disconnect .timerDelete) trivial)
        (by simp [Pc.Active, Pc.Building, Pc.Dismantling]) s.role
    | setRole arg => exact ⟨h.outline, h.settled⟩
  | work =>
    simp only [connectionMachine, Option.ite_none_left_eq_some, Option.some.injEq] at hstep
    obtain ⟨-, rfl⟩ := hstep
    exact h.enter ⟨.work, .workTest⟩ ⟨trivial, fun id hid => absurd hid (by simp)⟩
      (by simp [Pc.Active, Pc.Building, Pc.Dismantling]) s.role
  | rxFail id =>
    simp only [connectionMachine, Option.ite_none_right_eq_some, Option.some.injEq] at hstep
    obtain ⟨⟨hlive, -⟩, rfl⟩ := hstep
    refine h.enter ⟨.rxThread id, .disconnect .timerDelete⟩ ⟨trivial, fun id' hid => ?_⟩
      (by simp [Pc.Active, Pc.Building, Pc.Dismantling]) s.role
    obtain rfl := Caller.rxThread.inj hid
    exact ⟨hlive, trivial⟩
  | advance k ok =>
    simp only [connectionMachine] at hstep
    split at hstep
    · exact absurd hstep (by simp)
    · next call hk =>
      obtain ⟨⟨dev', pc'⟩, hcall, rfl⟩ := Option.map_eq_some_iff.mp hstep
      obtain ⟨hcreate, hdelete⟩ := hguard call hk
      have hassert := h.outline.holds k call hk
      unfold callStep at hcall
      split at hcall
      · next pc hpc =>
        obtain ⟨⟨dev, out⟩, hs, heq⟩ := Option.map_eq_some_iff.mp hcall
        obtain ⟨rfl, rfl⟩ := Prod.mk.inj heq
        exact h.connect hk hpc (fun hsock => hcreate (hsock ▸ hpc)) hs _ _
      · next pc hpc =>
        obtain ⟨⟨dev, out⟩, hs, heq⟩ := Option.map_eq_some_iff.mp hcall
        obtain ⟨rfl, rfl⟩ := Prod.mk.inj heq
        exact h.disconnect hk hpc (fun htimer => hdelete (htimer ▸ hpc)) hs _ _
      · next hpc =>
        obtain ⟨rfl, rfl⟩ := Prod.mk.inj (Option.some.inj hcall)
        have hown := hassert.not_rxThread (by simp [hpc, Pc.BeforeRxGone])
        refine h.idle hk (if s.dev.connected then .finished else .connect .sockCreate) ?_ ?_
          ⟨?_, fun id hid => absurd hid (hown id)⟩ _ _
        · simp [hpc, Pc.Active, Pc.Building, Pc.Dismantling]
        · split_ifs <;> simp [Pc.Active, Pc.Building, Pc.Dismantling]
        · split_ifs <;> trivial
      · next hpc =>
        obtain ⟨rfl, rfl⟩ := Prod.mk.inj (Option.some.inj hcall)
        have hown := hassert.not_rxThread (by simp [hpc, Pc.BeforeRxGone])
        refine h.idle hk .finished ?_ ?_ ⟨trivial, fun id hid => absurd hid (hown id)⟩ _ _
        · simp [hpc, Pc.Active, Pc.Building, Pc.Dismantling]
        · simp [Pc.Active, Pc.Building, Pc.Dismantling]
      · next hpc =>
        have hown := hassert.not_rxThread (by simp [hpc, Pc.BeforeRxGone])
        split at hcall
        · next id hid => exact absurd hid (hown id)
        · exact absurd hcall (by simp)
      · exact absurd hcall (by simp)
  | rxReturn id =>
    simp only [connectionMachine, Option.ite_none_right_eq_some, Option.some.injEq] at hstep
    obtain ⟨⟨hid, hown⟩, rfl⟩ := hstep
    exact h.rxReturn hid hown
  | txReturn id =>
    simp only [connectionMachine, Option.ite_none_right_eq_some, Option.some.injEq] at hstep
    obtain ⟨hid, rfl⟩ := hstep
    exact h.txReturn hid

/-- A device fresh from its initialization has no connection and no calls. -/
theorem vpciDeviceInit_serial : Serial vpciDeviceInit where
  outline := ⟨fun k c hc => absurd hc (by simp [vpciDeviceInit]),
    fun j k c d hc => absurd hc (by simp [vpciDeviceInit])⟩
  settled := fun _ => Or.inl rfl

/-- In every serialized run, whatever fails, the connection state is consistent in every state in
which no connect and no disconnect is in progress. -/
theorem connection_consistent {labels : List VpciStep}
    (h : connectionMachine.Guarded Serialized vpciDeviceInit labels) :
    connectionMachine.Always (fun s => Quiescent s → Consistent s.dev) vpciDeviceInit labels := by
  have hserial := connectionMachine.always_of_guarded
    (fun _ _ _ hs hstep hguard => connectionMachine_step hs hstep hguard) vpciDeviceInit_serial h
  apply hserial.mono
  intro s hs hquiet
  apply Settled.consistent
  apply hs.settled
  intro k c hc hactive
  apply hquiet c (List.mem_of_getElem? hc)
  obtain ⟨caller, pc⟩ := c
  cases pc with
  | connect pc => trivial
  | disconnect pc => trivial
  | workTest => exact hactive.elim id id
  | roleNone => exact hactive.elim id id
  | rxEnd => exact hactive.elim id id
  | finished => exact hactive.elim id id

/-- A connect by call `k` in which nothing fails. -/
def connectRun (k : ℕ) : List VpciStep := .ioctl .connect :: List.replicate 7 (.advance k true)

/-- A disconnect by call `k` that finds the threads `rx` and `tx`. -/
def disconnectRun (k rx tx : ℕ) : List VpciStep :=
  .ioctl .disconnect :: List.replicate 3 (.advance k true) ++ .txReturn tx ::
    List.replicate 3 (.advance k true) ++ .rxReturn rx :: List.replicate 6 (.advance k true)

/-- A connect, a disconnect, and the reconnect work. -/
theorem connection_consistent_reconnect :
    connectionMachine.Always (fun s => Quiescent s → Consistent s.dev) vpciDeviceInit
      (connectRun 0 ++ disconnectRun 1 2 4 ++ .work :: List.replicate 8 (.advance 2 true)) :=
  connection_consistent (by decide)

/-- A second `CONNECT` makes the device forget the socket and the threads of the first. A receive
thread that fails before the connect has stored its pointer takes the socket down, and the connect
still sets the flag. -/
theorem connection_forgotten :
    (¬ connectionMachine.Always (fun s => Quiescent s → Consistent s.dev) vpciDeviceInit
        (connectRun 0 ++ connectRun 1)) ∧
      ¬ connectionMachine.Always (fun s => Quiescent s → Consistent s.dev) vpciDeviceInit
        (.ioctl .connect :: List.replicate 3 (.advance 0 true) ++ .rxFail 2 ::
          List.replicate 8 (.advance 1 true) ++ List.replicate 4 (.advance 0 true)) := by
  constructor
  · intro h
    have hend := h.of_reached _ (List.prefix_refl _) rfl (by decide)
    exact absurd hend.sockets.1 (by decide)
  · intro h
    have hend := h.of_reached _ (List.prefix_refl _) rfl (by decide)
    exact absurd (hend.connected.mp rfl).1 (by decide)

end LinuxFunctionTest.VirtualPcie
