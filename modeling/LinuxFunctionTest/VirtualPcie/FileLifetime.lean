import LinuxFunctionTest.Library.Outline
import LinuxFunctionTest.VirtualPcie.Connection
import Mathlib.Algebra.Group.Nat.Defs
import Mathlib.Data.List.Perm.Basic

/-!
# Device files and device lifetime

`virtual_pcie_core.c`: `vpci_probe`, `vpci_open`, `vpci_ioctl`, `vpci_release` and `vpci_remove` over
any number of devices and file handles, in the steps that `vpci_idr_lock` and the single accesses to a
device delimit. A device object is named by a number that is never used again. `vpci_open` counts the
handles of a device in `refcount`, an `atomic_t`, and `vpci_remove` frees the device without a look at the count.
-/

namespace LinuxFunctionTest.VirtualPcie

/-- `VPCI_MAX_DEVS`. -/
def vpciMaxDevs : ℕ := 16

/-- The commands of `vpci_ioctl`. -/
inductive IoctlCmd where
  | connect
  | disconnect
  | getStatus
  | setRole (arg : ℕ)
  | other
  deriving DecidableEq

/-- An access of `vpci_ioctl` to its device. -/
inductive IoctlAccess where
  | writeRole
  | writeConnected
  | readConnected
  | net
  deriving DecidableEq

/-- The accesses of `vpci_ioctl` to its device, in order; `vpci_net_connect` and
`vpci_net_disconnect` access it `net + 1` times. -/
def vpciIoctlAccesses (loopback : Bool) (cmd : IoctlCmd) (net : ℕ) : List IoctlAccess :=
  match cmd with
  | .connect =>
    if loopback then [.writeRole, .writeConnected]
    else .writeRole :: List.replicate (net + 1) .net
  | .disconnect => List.replicate (net + 1) .net ++ [.writeRole]
  | .getStatus => [.readConnected]
  | .setRole arg => if arg = vpciRoleEp then [.writeRole] else []
  | .other => []

/-- A file handle: the device in its `private_data`, and for each `vpci_ioctl` under way the accesses
still to come. -/
structure VpciFile where
  dev : ℕ
  ioctls : List (List IoctlAccess)
  deriving DecidableEq

/-- Where a `vpci_probe` is: before its allocation, before `vpci_device_init`, before `idr_replace`,
or before the clean-up of a failed initialisation. -/
inductive ProbePc where
  | kzalloc (id : ℕ)
  | init (dev : ℕ)
  | replace (dev : ℕ)
  | undo (dev : ℕ)
  deriving DecidableEq

/-- Where a `vpci_remove` is: before `vpci_put_id`, or before `kfree`. -/
inductive RemovePc where
  | putId (dev : ℕ)
  | kfree (dev : ℕ)
  deriving DecidableEq

/-- What file operations and removals do to a device object. -/
inductive FileEvent where
  | access (dev : ℕ)
  | kfree (dev : ℕ)
  deriving DecidableEq

/-- The identifiers, the fields `id` and `refcount` of the device objects, the calls under way and the
open handles. Observed: the devices that were probed, and the events, newest first. -/
structure VpciCore where
  idr : ℕ → Option (Option ℕ)
  fresh : ℕ
  id : ℕ → ℕ
  refcount : ℕ → ℤ
  probing : List ProbePc
  bound : List ℕ
  removing : List RemovePc
  files : List VpciFile
  releasing : List ℕ
  probed : List ℕ
  log : List FileEvent

/-- After `vpci_core_init`. -/
def vpciCoreInit : VpciCore where
  idr := fun _ => none
  fresh := 0
  id := fun _ => 0
  refcount := fun _ => 0
  probing := []
  bound := []
  removing := []
  files := []
  releasing := []
  probed := []
  log := []

/-- A step of a call. A step of a call under way names it by its position. -/
inductive CoreStep where
  | probe
  | probeKzalloc (k : ℕ) (ok : Bool)
  | probeInit (k : ℕ) (ok : Bool)
  | probeReplace (k : ℕ)
  | probeUndo (k : ℕ)
  | open (id : ℕ)
  | ioctl (f : ℕ) (loopback : Bool) (cmd : IoctlCmd) (net : ℕ)
  | ioctlAccess (f k : ℕ)
  | release (f : ℕ)
  | releasePut (k : ℕ)
  | remove (k : ℕ)
  | removePutId (k : ℕ)
  | removeKfree (k : ℕ)
  deriving DecidableEq

namespace VpciCore

/-- `idr_alloc` of `vpci_get_free_id`: the lowest free identifier. -/
def vpciGetFreeId (s : VpciCore) : Option ℕ :=
  (List.range vpciMaxDevs).find? fun id => s.idr id = none

/-- Write an entry of the `idr`. -/
def setIdr (s : VpciCore) (id : ℕ) (entry : Option (Option ℕ)) : VpciCore :=
  { s with idr := Function.update s.idr id entry }

/-- Record an event. -/
def emit (s : VpciCore) (e : FileEvent) : VpciCore := { s with log := e :: s.log }

/-- Change the reference count of a device, which wraps around at 32 bits. -/
def addRef (s : VpciCore) (dev : ℕ) (n : ℤ) : VpciCore :=
  { s with refcount := Function.update s.refcount dev (Int.bmod (s.refcount dev + n) (2 ^ 32)) }

/-- The lock section of `vpci_open` and its return; without a device it returns `-ENODEV`. -/
def vpciOpen (s : VpciCore) (id : ℕ) : VpciCore :=
  match s.idr id with
  | some (some dev) => { (s.addRef dev 1).emit (.access dev) with files := s.files ++ [⟨dev, []⟩] }
  | some none | none => s

/-- The next access of an `vpci_ioctl` on handle `f`; the call returns behind its last one. -/
def ioctlAccess (s : VpciCore) (f : ℕ) (file : VpciFile) (k : ℕ) (rest : List IoctlAccess) :
    VpciCore :=
  { s.emit (.access file.dev) with
    files := s.files.set f { file with
      ioctls := if rest = [] then file.ioctls.eraseIdx k else file.ioctls.set k rest } }

end VpciCore

/-- The functions of the driver. The kernel releases a handle when no `vpci_ioctl` on it is under
way, and removes a device that was probed once. -/
def coreMachine : Machine VpciCore CoreStep where
  step s
    | .probe =>
      match s.vpciGetFreeId with
      | some id => some { s.setIdr id (some none) with probing := s.probing ++ [.kzalloc id] }
      | none => some s
    | .probeKzalloc k ok =>
      match s.probing[k]? with
      | some (.kzalloc id) =>
        if ok then some { s with
          fresh := s.fresh + 1
          id := Function.update s.id s.fresh id
          probing := s.probing.set k (.init s.fresh) }
        else some { s.setIdr id none with probing := s.probing.eraseIdx k }
      | _ => none
    | .probeInit k ok =>
      match s.probing[k]? with
      | some (.init dev) => some { s with
          refcount := Function.update s.refcount dev 1
          probing := s.probing.set k (if ok then .replace dev else .undo dev) }
      | _ => none
    | .probeReplace k =>
      match s.probing[k]? with
      | some (.replace dev) => some { s.setIdr (s.id dev) (some (some dev)) with
          probing := s.probing.eraseIdx k
          bound := s.bound ++ [dev]
          probed := dev :: s.probed }
      | _ => none
    | .probeUndo k =>
      match s.probing[k]? with
      | some (.undo dev) => some { (s.setIdr (s.id dev) none).emit (.kfree dev) with
          probing := s.probing.eraseIdx k }
      | _ => none
    | .open id => some (s.vpciOpen id)
    | .ioctl f loopback cmd net =>
      (s.files[f]?).map fun file =>
        let accesses := vpciIoctlAccesses loopback cmd net
        if accesses = [] then s
        else { s with files := s.files.set f { file with ioctls := file.ioctls ++ [accesses] } }
    | .ioctlAccess f k =>
      match s.files[f]? with
      | some file =>
        match file.ioctls[k]? with
        | some (_ :: rest) => some (s.ioctlAccess f file k rest)
        | _ => none
      | none => none
    | .release f =>
      match s.files[f]? with
      | some ⟨dev, []⟩ => some { (s.addRef dev (-1)).emit (.access dev) with
          files := s.files.eraseIdx f
          releasing := s.releasing ++ [dev] }
      | _ => none
    | .releasePut k =>
      (s.releasing[k]?).map fun dev =>
        { s.emit (.access dev) with releasing := s.releasing.eraseIdx k }
    | .remove k =>
      (s.bound[k]?).map fun dev =>
        { s with bound := s.bound.eraseIdx k, removing := s.removing ++ [.putId dev] }
    | .removePutId k =>
      match s.removing[k]? with
      | some (.putId dev) => some { s.setIdr (s.id dev) none with
          removing := s.removing.set k (.kfree dev) }
      | _ => none
    | .removeKfree k =>
      match s.removing[k]? with
      | some (.kfree dev) => some { s.emit (.kfree dev) with removing := s.removing.eraseIdx k }
      | _ => none

/-- Whether no access to a device comes after its `kfree`; the newest event stands first. -/
def UseLegal : List FileEvent → Prop
  | [] => True
  | .access dev :: log => FileEvent.kfree dev ∉ log ∧ UseLegal log
  | .kfree _ :: log => UseLegal log

/-- The open handles of a device. -/
def VpciCore.handles (s : VpciCore) (dev : ℕ) : ℕ := (s.files.map VpciFile.dev).count dev

/-- No access to a freed device has happened or is the next step, and a device that was probed and not
freed counts its open handles and one more. -/
structure HandlesSafe (s : VpciCore) : Prop where
  past : UseLegal s.log
  next : ∀ label t, coreMachine.step s label = some t → UseLegal t.log
  refcount : ∀ dev ∈ s.probed, FileEvent.kfree dev ∉ s.log → s.refcount dev = 1 + s.handles dev

/-- `vpci_remove` frees a device only when no handle on it is open and no `vpci_release` of one is
under way, and `vpci_open` opens no handle that the counter has no room for. -/
def RefsKept (s : VpciCore) : CoreStep → Prop
  | .removeKfree k => ∀ dev, s.removing[k]? = some (.kfree dev) →
      (∀ file ∈ s.files, file.dev ≠ dev) ∧ dev ∉ s.releasing
  | .open id => ∀ dev, s.idr id = some (some dev) → s.handles dev + 2 < 2 ^ 31
  | _ => True

namespace VpciCore

/-- A device that was probed and is not freed. -/
def Alive (s : VpciCore) (dev : ℕ) : Prop := dev ∈ s.probed ∧ FileEvent.kfree dev ∉ s.log

/-- The counter of the device is right, and has room for its handles. -/
def Counts (s : VpciCore) (dev : ℕ) : Prop := s.refcount dev = 1 + s.handles dev ∧ 1 + s.handles dev < 2 ^ 31

/-- An allocated device whose probe has not finished. -/
def Unborn (s : VpciCore) (dev : ℕ) : Prop :=
  dev < s.fresh ∧ dev ∉ s.probed ∧ FileEvent.kfree dev ∉ s.log

/-- An access frees nothing. -/
theorem Alive.access {s : VpciCore} {dev : ℕ} (h : s.Alive dev) (used : ℕ) :
    (s.emit (.access used)).Alive dev :=
  ⟨h.1, by simpa [emit] using h.2⟩

/-- A device outlives the `kfree` of another one. -/
theorem Alive.kfree {s : VpciCore} {dev : ℕ} (h : s.Alive dev) {freed : ℕ} (hne : dev ≠ freed) :
    (s.emit (.kfree freed)).Alive dev :=
  ⟨h.1, by simpa [emit, hne] using h.2⟩

/-- An access frees no device under construction. -/
theorem Unborn.access {s : VpciCore} {dev : ℕ} (h : s.Unborn dev) (used : ℕ) :
    (s.emit (.access used)).Unborn dev :=
  ⟨h.1, h.2.1, by simpa [emit] using h.2.2⟩

/-- A device under construction outlives the `kfree` of another one. -/
theorem Unborn.kfree {s : VpciCore} {dev : ℕ} (h : s.Unborn dev) {freed : ℕ} (hne : dev ≠ freed) :
    (s.emit (.kfree freed)).Unborn dev :=
  ⟨h.1, h.2.1, by simpa [emit, hne] using h.2.2⟩

/-- The counter that is changed. -/
theorem addRef_refcount (s : VpciCore) (dev : ℕ) (n : ℤ) :
    (s.addRef dev n).refcount dev = Int.bmod (s.refcount dev + n) (2 ^ 32) :=
  Function.update_self ..

/-- The entry written is found. -/
@[simp] theorem setIdr_self (s : VpciCore) (id : ℕ) (entry : Option (Option ℕ)) :
    (s.setIdr id entry).idr id = entry :=
  Function.update_self ..

/-- An entry of the `idr` is the one written, or was there before. -/
theorem setIdr_cases {s : VpciCore} {id i : ℕ} {entry e : Option (Option ℕ)}
    (h : (s.setIdr id entry).idr i = e) : (i = id ∧ entry = e) ∨ s.idr i = e := by
  by_cases hid : i = id
  · subst hid
    exact Or.inl ⟨rfl, (setIdr_self s i entry).symm.trans h⟩
  · exact Or.inr ((Function.update_of_ne hid ..).symm.trans h)

/-- No device is under construction and probed. -/
theorem Unborn.ne {s : VpciCore} {dev other : ℕ} (h : s.Unborn dev) (hother : other ∈ s.probed) :
    dev ≠ other :=
  fun heq => h.2.1 (heq ▸ hother)

end VpciCore

/-- The device a probe is constructing. -/
def ProbePc.dev? : ProbePc → Option ℕ
  | .kzalloc _ => none
  | .init dev | .replace dev | .undo dev => some dev

/-- What holds of the device while a probe is constructing it. -/
def ProbeHolds (s : VpciCore) : ProbePc → Prop
  | .kzalloc _ => True
  | .init dev | .undo dev => s.Unborn dev
  | .replace dev => s.Unborn dev ∧ s.refcount dev = 1

/-- Two probes construct different devices. -/
def ProbeApart (c d : ProbePc) : Prop := ∀ dev, c.dev? = some dev → d.dev? ≠ some dev

/-- What holds of the device while it is removed. -/
def RemoveHolds (s : VpciCore) : RemovePc → Prop
  | .putId dev => dev ∈ s.probed
  | .kfree dev => dev ∈ s.probed ∧ ∀ id, s.idr id ≠ some (some dev)

/-- The invariant of the runs that free unused devices only and do not open too many handles. -/
structure CoreInv (s : VpciCore) : Prop where
  lt : ∀ dev, dev ∈ s.probed ∨ FileEvent.kfree dev ∈ s.log → dev < s.fresh
  idr : ∀ id dev, s.idr id = some (some dev) → s.Alive dev ∧ s.id dev = id
  probing : Outline ProbeHolds ProbeApart s s.probing
  bound : ∀ dev ∈ s.bound, dev ∈ s.probed
  removing : ∀ pc ∈ s.removing, RemoveHolds s pc
  files : ∀ file ∈ s.files, s.Alive file.dev ∧ [] ∉ file.ioctls
  releasing : ∀ dev ∈ s.releasing, s.Alive dev
  refcount : ∀ dev ∈ s.probed, s.Counts dev
  log : UseLegal s.log

/-- A probe keeps its assertion when its device stays under construction and its count is kept. -/
theorem ProbeHolds.mono {s t : VpciCore} {pc : ProbePc} (h : ProbeHolds s pc)
    (hunborn : ∀ dev, pc.dev? = some dev → s.Unborn dev →
      t.Unborn dev ∧ t.refcount dev = s.refcount dev) : ProbeHolds t pc := by
  cases pc with
  | kzalloc id => trivial
  | init dev => exact (hunborn dev rfl h).1
  | undo dev => exact (hunborn dev rfl h).1
  | replace dev =>
    obtain ⟨ht, hcount⟩ := hunborn dev rfl h.1
    exact ⟨ht, hcount.trans h.2⟩

/-- The device of a probe is under construction. -/
theorem ProbeHolds.unborn {s : VpciCore} {pc : ProbePc} (h : ProbeHolds s pc) {dev : ℕ}
    (hdev : pc.dev? = some dev) : s.Unborn dev := by
  cases pc with
  | kzalloc id => exact absurd hdev (by simp [ProbePc.dev?])
  | init dev' => exact Option.some.inj hdev ▸ h
  | undo dev' => exact Option.some.inj hdev ▸ h
  | replace dev' => exact Option.some.inj hdev ▸ h.1

section Steps

variable {s : VpciCore}

/-- A probe that constructs a device does not construct that of another. -/
theorem CoreInv.probe_ne (h : CoreInv s) {j k : ℕ} {c d : ProbePc} (hj : s.probing[j]? = some d)
    (hk : s.probing[k]? = some c) (hjk : j ≠ k) {dev other : ℕ} (hdev : d.dev? = some dev)
    (hother : c.dev? = some other) : dev ≠ other := by
  rintro rfl
  exact h.probing.apart j k d c hj hk hjk dev hdev hother

/-- An identifier reserved, or freed, loses its device. -/
theorem CoreInv.setIdr (h : CoreInv s) (id : ℕ) {entry : Option (Option ℕ)}
    (hentry : ∀ dev, entry ≠ some (some dev)) : CoreInv (s.setIdr id entry) where
  lt := h.lt
  idr := by
    intro i dev hi
    rcases VpciCore.setIdr_cases hi with ⟨-, hentry'⟩ | hi
    · exact absurd hentry' (hentry dev)
    · exact h.idr i dev hi
  probing := h.probing.interfere fun k c hc => h.probing.holds k c hc
  bound := h.bound
  removing := by
    intro pc hpc
    have hholds := h.removing pc hpc
    cases pc with
    | putId dev => exact hholds
    | kfree dev =>
      refine ⟨hholds.1, fun i hi => ?_⟩
      rcases VpciCore.setIdr_cases hi with ⟨-, hentry'⟩ | hi
      · exact absurd hentry' (hentry dev)
      · exact hholds.2 i hi
  files := h.files
  releasing := h.releasing
  refcount := h.refcount
  log := h.log

/-- The probes under way may change as long as the outline holds. -/
theorem CoreInv.setProbing (h : CoreInv s) {calls : List ProbePc}
    (hcalls : Outline ProbeHolds ProbeApart s calls) : CoreInv { s with probing := calls } where
  lt := h.lt
  idr := h.idr
  probing := hcalls.interfere fun k c hc => hcalls.holds k c hc
  bound := h.bound
  removing := h.removing
  files := h.files
  releasing := h.releasing
  refcount := h.refcount
  log := h.log

/-- An access to a device that is not freed is legal. -/
theorem CoreInv.access (h : CoreInv s) {dev : ℕ} (hdev : s.Alive dev) :
    CoreInv (s.emit (.access dev)) where
  lt := fun d hd => h.lt d (by simpa [VpciCore.emit] using hd)
  idr := fun i d hi => ⟨(h.idr i d hi).1.access dev, (h.idr i d hi).2⟩
  probing := h.probing.interfere fun k c hc =>
    (h.probing.holds k c hc).mono fun d _ hd => ⟨hd.access dev, rfl⟩
  bound := h.bound
  removing := h.removing
  files := fun file hfile => ⟨(h.files file hfile).1.access dev, (h.files file hfile).2⟩
  releasing := fun d hd => (h.releasing d hd).access dev
  refcount := h.refcount
  log := ⟨hdev.2, h.log⟩

/-- A device that nothing refers to can be freed. -/
theorem CoreInv.kfree (h : CoreInv s) {dev : ℕ} (hlt : dev < s.fresh)
    (hidr : ∀ id, s.idr id ≠ some (some dev))
    (hprobing : ∀ pc ∈ s.probing, pc.dev? ≠ some dev)
    (hfiles : ∀ file ∈ s.files, file.dev ≠ dev)
    (hreleasing : dev ∉ s.releasing) : CoreInv (s.emit (.kfree dev)) where
  lt := by
    intro d hd
    rcases hd with hd | hd
    · exact h.lt d (Or.inl hd)
    · rcases List.mem_cons.mp hd with heq | hd
      · exact FileEvent.kfree.inj heq ▸ hlt
      · exact h.lt d (Or.inr hd)
  idr := by
    intro i d hi
    obtain ⟨halive, hid⟩ := h.idr i d hi
    refine ⟨halive.kfree ?_, hid⟩
    rintro rfl
    exact hidr i hi
  probing := by
    apply h.probing.interfere
    intro k c hc
    refine (h.probing.holds k c hc).mono fun d hd hunborn => ⟨hunborn.kfree ?_, rfl⟩
    rintro rfl
    exact hprobing c (List.mem_of_getElem? hc) hd
  bound := h.bound
  removing := h.removing
  files := fun file hfile =>
    ⟨(h.files file hfile).1.kfree (hfiles file hfile), (h.files file hfile).2⟩
  releasing := by
    intro d hd
    refine (h.releasing d hd).kfree ?_
    rintro rfl
    exact hreleasing hd
  refcount := h.refcount
  log := h.log

/-- The handles and the calls of `vpci_release` may change as long as they belong to devices that are
not freed and the counts follow. -/
theorem CoreInv.setFiles (h : CoreInv s) (refcount : ℕ → ℤ) {files : List VpciFile}
    {releasing : List ℕ} (hfiles : ∀ file ∈ files, s.Alive file.dev ∧ [] ∉ file.ioctls)
    (hreleasing : ∀ dev ∈ releasing, s.Alive dev)
    (hcount : ∀ dev, dev ∈ s.probed →
      refcount dev = 1 + ((files.map VpciFile.dev).count dev : ℕ) ∧
        1 + (files.map VpciFile.dev).count dev < 2 ^ 31)
    (hunborn : ∀ dev, dev ∉ s.probed → refcount dev = s.refcount dev) :
    CoreInv { s with refcount := refcount, files := files, releasing := releasing } where
  lt := h.lt
  idr := h.idr
  probing := h.probing.interfere fun k c hc =>
    (h.probing.holds k c hc).mono fun dev _ hdev => ⟨hdev, hunborn dev hdev.2.1⟩
  bound := h.bound
  removing := h.removing
  files := hfiles
  releasing := hreleasing
  refcount := hcount
  log := h.log

/-- The counter of a device goes up or down by one as long as there is room. -/
theorem VpciCore.addRef_self {dev n : ℕ} {k : ℤ} (hcount : s.refcount dev + k = 1 + n) (hroom : 1 + n < 2 ^ 31) :
    (s.addRef dev k).refcount dev = 1 + n := by
  rw [VpciCore.addRef_refcount, hcount]
  exact Int.bmod_eq_of_le (by omega) (by omega)

/-- `vpci_open` keeps the invariant as long as the counter has room. -/
theorem CoreInv.vpciOpen (h : CoreInv s) {id : ℕ}
    (hroom : ∀ dev, s.idr id = some (some dev) → s.handles dev + 2 < 2 ^ 31) : CoreInv (s.vpciOpen id) := by
  unfold VpciCore.vpciOpen
  split
  next dev hid =>
    obtain ⟨halive, -⟩ := h.idr id dev hid
    refine (h.access halive).setFiles (s.addRef dev 1).refcount ?_ ?_ ?_ ?_
    · intro file hfile
      rcases List.mem_append.mp hfile with hfile | hfile
      · exact (h.access halive).files file hfile
      · obtain rfl := List.mem_singleton.mp hfile
        exact ⟨halive.access dev, List.not_mem_nil⟩
    · exact (h.access halive).releasing
    · intro d hd
      obtain ⟨hcount, hlt⟩ := h.refcount d hd
      rw [List.map_append, List.count_append]
      by_cases hne : d = dev
      · subst hne
        have hone : (List.map VpciFile.dev [⟨d, []⟩]).count d = 1 := by simp
        have hnext : s.refcount d + 1 = 1 + ((s.handles d + 1 : ℕ) : ℤ) := by omega
        have hfits : 1 + (s.handles d + 1) < 2 ^ 31 := by have := hroom d hid; omega
        rw [hone]
        exact ⟨VpciCore.addRef_self hnext hfits, hfits⟩
      · have hnone : (List.map VpciFile.dev [⟨dev, []⟩]).count d = 0 := by simp [Ne.symm hne]
        rw [hnone]
        exact ⟨(Function.update_of_ne hne ..).trans hcount, hlt⟩
    · intro d hd
      have hne : d ≠ dev := fun heq => hd (heq ▸ halive.1)
      exact Function.update_of_ne hne ..
  next => exact h
  next => exact h

/-- The access of `vpci_open` is legal, with room in the counter or without. -/
theorem CoreInv.vpciOpen_log (h : CoreInv s) (id : ℕ) : UseLegal (s.vpciOpen id).log := by
  unfold VpciCore.vpciOpen
  split
  next dev hid => exact (h.access (h.idr id dev hid).1).log
  next => exact h.log
  next => exact h.log

/-- Without room, the counter is wrong behind `vpci_open`. -/
theorem CoreInv.vpciOpen_wraps (h : CoreInv s) {id dev : ℕ} (hid : s.idr id = some (some dev))
    (hfull : 2 ^ 31 ≤ s.handles dev + 2) : ¬ HandlesSafe (s.vpciOpen id) := by
  intro hsafe
  obtain ⟨⟨hprobed, hkept⟩, -⟩ := h.idr id dev hid
  have hopen : s.vpciOpen id = { (s.addRef dev 1).emit (.access dev) with files := s.files ++ [⟨dev, []⟩] } := by
    rw [VpciCore.vpciOpen, hid]
  rw [hopen] at hsafe
  have hcount := hsafe.refcount dev hprobed (by simpa [VpciCore.emit, VpciCore.addRef] using hkept)
  have hlt : (s.addRef dev 1).refcount dev < 2 ^ 31 := by
    rw [VpciCore.addRef_refcount]
    exact Int.bmod_lt (by decide)
  have hhandles : ((s.files ++ [(⟨dev, []⟩ : VpciFile)]).map VpciFile.dev).count dev = s.handles dev + 1 := by
    simp [VpciCore.handles]
  change (s.addRef dev 1).refcount dev =
    1 + (((s.files ++ [(⟨dev, []⟩ : VpciFile)]).map VpciFile.dev).count dev : ℕ) at hcount
  rw [hhandles] at hcount
  omega

/-- A handle replaced by one of the same device keeps the invariant. -/
theorem CoreInv.setFile (h : CoreInv s) {f : ℕ} {file : VpciFile} (hf : s.files[f]? = some file)
    {ioctls : List (List IoctlAccess)} (hioctls : [] ∉ ioctls) :
    CoreInv { s with files := s.files.set f { file with ioctls := ioctls } } := by
  have halive := (h.files file (List.mem_of_getElem? hf)).1
  have hdevs : (s.files.set f { file with ioctls := ioctls }).map VpciFile.dev =
      s.files.map VpciFile.dev := by
    obtain ⟨hlt, heq⟩ := List.getElem?_eq_some_iff.mp hf
    subst heq
    rw [List.map_set, ← List.getElem_map VpciFile.dev (h := by simpa using hlt), List.set_getElem_self]
  refine h.setFiles s.refcount ?_ h.releasing ?_ fun _ _ => rfl
  · intro file' hfile'
    rcases List.mem_or_eq_of_mem_set hfile' with hfile' | rfl
    · exact h.files file' hfile'
    · exact ⟨halive, hioctls⟩
  · intro dev hdev
    rw [hdevs]
    exact h.refcount dev hdev

/-- An access of `vpci_ioctl` keeps the invariant. -/
theorem CoreInv.ioctlAccess (h : CoreInv s) {f k : ℕ} {file : VpciFile} (hf : s.files[f]? = some file)
    (rest : List IoctlAccess) : CoreInv (s.ioctlAccess f file k rest) := by
  obtain ⟨halive, hioctls⟩ := h.files file (List.mem_of_getElem? hf)
  refine (h.access halive).setFile hf ?_
  split_ifs with hrest
  · exact fun hmem => hioctls (List.mem_of_mem_eraseIdx hmem)
  · intro hmem
    rcases List.mem_or_eq_of_mem_set hmem with hmem | hmem
    · exact hioctls hmem
    · exact hrest hmem.symm

/-- The first statement of `vpci_release` keeps the invariant. -/
theorem CoreInv.release (h : CoreInv s) {f : ℕ} {file : VpciFile} (hf : s.files[f]? = some file) :
    CoreInv { (s.addRef file.dev (-1)).emit (.access file.dev) with
      files := s.files.eraseIdx f
      releasing := s.releasing ++ [file.dev] } := by
  have halive := (h.files file (List.mem_of_getElem? hf)).1
  obtain ⟨hlt, heq⟩ := List.getElem?_eq_some_iff.mp hf
  have hcount : ∀ dev, s.handles dev =
      ((s.files.eraseIdx f).map VpciFile.dev).count dev + if file.dev = dev then 1 else 0 := by
    intro dev
    have hperm := (List.getElem_cons_eraseIdx_perm hlt).map VpciFile.dev
    rw [heq, List.map_cons] at hperm
    rw [VpciCore.handles, ← hperm.count_eq dev, List.count_cons]
    simp only [beq_iff_eq]
  refine (h.access halive).setFiles (s.addRef file.dev (-1)).refcount ?_ ?_ ?_ ?_
  · exact fun file' hfile' => (h.access halive).files file' (List.mem_of_mem_eraseIdx hfile')
  · intro dev hdev
    rcases List.mem_append.mp hdev with hdev | hdev
    · exact (h.access halive).releasing dev hdev
    · exact List.mem_singleton.mp hdev ▸ halive.access file.dev
  · intro dev hdev
    obtain ⟨hold, hlt⟩ := h.refcount dev hdev
    have hsplit := hcount dev
    by_cases hne : dev = file.dev
    · subst hne
      rw [if_pos rfl] at hsplit
      have hfits : 1 + ((s.files.eraseIdx f).map VpciFile.dev).count file.dev < 2 ^ 31 := by omega
      exact ⟨VpciCore.addRef_self (by omega) hfits, hfits⟩
    · rw [if_neg (Ne.symm hne), Nat.add_zero] at hsplit
      rw [← hsplit]
      exact ⟨(Function.update_of_ne hne ..).trans hold, hlt⟩
  · intro dev hdev
    have hne : dev ≠ file.dev := fun heq => hdev (heq ▸ halive.1)
    exact Function.update_of_ne hne ..

/-- A step of `vpci_probe` keeps the invariant: the allocation. -/
theorem CoreInv.probeKzalloc (h : CoreInv s) (k id : ℕ) : CoreInv { s with
      fresh := s.fresh + 1
      id := Function.update s.id s.fresh id
      probing := s.probing.set k (.init s.fresh) } where
  lt := fun dev hdev => Nat.lt_succ_of_lt (h.lt dev hdev)
  idr := by
    intro i dev hi
    obtain ⟨halive, hid⟩ := h.idr i dev hi
    have hne : dev ≠ s.fresh := Nat.ne_of_lt (h.lt dev (Or.inl halive.1))
    exact ⟨halive, (Function.update_of_ne hne ..).trans hid⟩
  probing := by
    have hfresh : ∀ (j : ℕ) d dev, s.probing[j]? = some d → d.dev? = some dev → dev < s.fresh :=
      fun j d dev hj hdev => ((h.probing.holds j d hj).unborn hdev).1
    apply h.probing.advance
    · refine ⟨Nat.lt_succ_self _, fun hmem => ?_, fun hmem => ?_⟩
      · exact Nat.lt_irrefl _ (h.lt s.fresh (Or.inl hmem))
      · exact Nat.lt_irrefl _ (h.lt s.fresh (Or.inr hmem))
    · intro j d _ hj
      exact (h.probing.holds j d hj).mono fun dev _ hdev =>
        ⟨⟨Nat.lt_succ_of_lt hdev.1, hdev.2⟩, rfl⟩
    · intro j d _ hj
      constructor
      · intro dev hdev hd
        have hlt := hfresh j d dev hj hd
        have heq : s.fresh = dev := Option.some.inj hdev
        omega
      · intro dev hdev hd
        have hlt := hfresh j d dev hj hdev
        have heq : s.fresh = dev := Option.some.inj hd
        omega
  bound := h.bound
  removing := h.removing
  files := h.files
  releasing := h.releasing
  refcount := h.refcount
  log := h.log

/-- A step of `vpci_probe` keeps the invariant: `vpci_device_init`. -/
theorem CoreInv.probeInit (h : CoreInv s) {k dev : ℕ} (hk : s.probing[k]? = some (.init dev))
    (ok : Bool) : CoreInv { s with
      refcount := Function.update s.refcount dev 1
      probing := s.probing.set k (if ok then .replace dev else .undo dev) } where
  lt := h.lt
  idr := h.idr
  probing := by
    have hunborn := (h.probing.holds k _ hk).unborn rfl
    have hnext : (if ok then ProbePc.replace dev else .undo dev).dev? = some dev := by
      cases ok <;> rfl
    apply h.probing.advance
    · cases ok with
      | false => exact hunborn
      | true => exact ⟨hunborn, Function.update_self ..⟩
    · intro j d hjk hj
      refine (h.probing.holds j d hj).mono fun other hd hother => ⟨hother, ?_⟩
      exact Function.update_of_ne (h.probe_ne hj hk hjk hd rfl) ..
    · intro j d hjk hj
      constructor
      · intro other hother hd
        rw [hnext] at hother
        exact h.probe_ne hj hk hjk hd rfl (Option.some.inj hother).symm
      · intro other hd hother
        rw [hnext] at hother
        exact h.probe_ne hj hk hjk hd rfl (Option.some.inj hother).symm
  bound := h.bound
  removing := h.removing
  files := h.files
  releasing := h.releasing
  refcount := by
    intro other hother
    have hne := ((h.probing.holds k _ hk).unborn rfl).ne hother
    obtain ⟨hcount, hlt⟩ := h.refcount other hother
    exact ⟨(Function.update_of_ne hne.symm ..).trans hcount, hlt⟩
  log := h.log

/-- A step of `vpci_probe` keeps the invariant: `idr_replace`. -/
theorem CoreInv.probeReplace (h : CoreInv s) {k dev : ℕ} (hk : s.probing[k]? = some (.replace dev)) :
    CoreInv { s.setIdr (s.id dev) (some (some dev)) with
      probing := s.probing.eraseIdx k
      bound := s.bound ++ [dev]
      probed := dev :: s.probed } := by
  obtain ⟨hunborn, hone⟩ := h.probing.holds k _ hk
  have halive : ∀ d, s.Alive d → VpciCore.Alive { s.setIdr (s.id dev) (some (some dev)) with
      probing := s.probing.eraseIdx k
      bound := s.bound ++ [dev]
      probed := dev :: s.probed } d := fun d hd => ⟨List.mem_cons_of_mem dev hd.1, hd.2⟩
  constructor
  case lt =>
    intro d hd
    rcases hd with hd | hd
    · rcases List.mem_cons.mp hd with rfl | hd
      · exact hunborn.1
      · exact h.lt d (Or.inl hd)
    · exact h.lt d (Or.inr hd)
  case idr =>
    intro i d hi
    rcases VpciCore.setIdr_cases hi with ⟨rfl, heq⟩ | hi
    · obtain rfl : dev = d := by simpa using heq
      exact ⟨⟨List.mem_cons_self, hunborn.2.2⟩, rfl⟩
    · obtain ⟨hd, hdid⟩ := h.idr i d hi
      exact ⟨halive d hd, hdid⟩
  case probing =>
    apply h.probing.leave
    intro j d hjk hj
    refine (h.probing.holds j d hj).mono fun other hd hother => ⟨⟨hother.1, ?_, hother.2.2⟩, rfl⟩
    intro hmem
    rcases List.mem_cons.mp hmem with heq | hmem
    · exact h.probe_ne hj hk hjk hd rfl heq
    · exact hother.2.1 hmem
  case bound =>
    intro d hd
    rcases List.mem_append.mp hd with hd | hd
    · exact List.mem_cons_of_mem dev (h.bound d hd)
    · exact List.mem_singleton.mp hd ▸ List.mem_cons_self
  case removing =>
    intro pc hpc
    have hholds := h.removing pc hpc
    cases pc with
    | putId d => exact List.mem_cons_of_mem dev hholds
    | kfree d =>
      refine ⟨List.mem_cons_of_mem dev hholds.1, fun i hi => ?_⟩
      rcases VpciCore.setIdr_cases hi with ⟨-, heq⟩ | hi
      · exact hunborn.ne hholds.1 (by simpa using heq)
      · exact hholds.2 i hi
  case files => exact fun file hfile => ⟨halive _ (h.files file hfile).1, (h.files file hfile).2⟩
  case releasing => exact fun d hd => halive d (h.releasing d hd)
  case refcount =>
    intro d hd
    rcases List.mem_cons.mp hd with rfl | hd
    · have hnone : s.handles d = 0 := by
        rw [VpciCore.handles, List.count_eq_zero]
        intro hmem
        obtain ⟨file, hfile, rfl⟩ := List.mem_map.mp hmem
        exact hunborn.2.1 (h.files file hfile).1.1
      change s.Counts d
      rw [VpciCore.Counts, hone, hnone]
      exact ⟨rfl, by decide⟩
    · exact h.refcount d hd
  case log => exact h.log

/-- A step of `vpci_probe` keeps the invariant: the clean-up. -/
theorem CoreInv.probeUndo (h : CoreInv s) {k dev : ℕ} (hk : s.probing[k]? = some (.undo dev)) :
    CoreInv { (s.setIdr (s.id dev) none).emit (.kfree dev) with
      probing := s.probing.eraseIdx k } := by
  have hunborn := (h.probing.holds k _ hk).unborn rfl
  have hleft : CoreInv { s with probing := s.probing.eraseIdx k } :=
    h.setProbing (h.probing.leave fun j d _ hj => h.probing.holds j d hj)
  have hfreed := hleft.kfree hunborn.1 ?_ ?_ ?_ ?_
  · exact hfreed.setIdr (s.id dev) (by simp)
  · exact fun i hi => hunborn.2.1 (h.idr i dev hi).1.1
  · intro pc hpc hdev
    obtain ⟨j, hj⟩ := List.mem_iff_getElem?.mp hpc
    obtain ⟨i, hik, hi, -⟩ := Outline.getElem?_eraseIdx_cases hj
    exact h.probe_ne hi hk hik hdev rfl rfl
  · exact fun file hfile heq => hunborn.2.1 (heq ▸ (h.files file hfile).1.1)
  · exact fun hmem => hunborn.2.1 (h.releasing dev hmem).1

/-- The removals under way may change as long as their assertions hold. -/
theorem CoreInv.setRemoving (h : CoreInv s) {bound : List ℕ} {calls : List RemovePc}
    (hbound : ∀ dev ∈ bound, dev ∈ s.probed) (hcalls : ∀ pc ∈ calls, RemoveHolds s pc) :
    CoreInv { s with bound := bound, removing := calls } where
  lt := h.lt
  idr := h.idr
  probing := h.probing.interfere fun k c hc => h.probing.holds k c hc
  bound := hbound
  removing := hcalls
  files := h.files
  releasing := h.releasing
  refcount := h.refcount
  log := h.log

/-- A step of `vpci_remove` keeps the invariant: its start. -/
theorem CoreInv.remove (h : CoreInv s) {k dev : ℕ} (hk : s.bound[k]? = some dev) :
    CoreInv { s with bound := s.bound.eraseIdx k, removing := s.removing ++ [.putId dev] } := by
  refine h.setRemoving (fun d hd => h.bound d (List.mem_of_mem_eraseIdx hd)) fun pc hpc => ?_
  rcases List.mem_append.mp hpc with hpc | hpc
  · exact h.removing pc hpc
  · exact List.mem_singleton.mp hpc ▸ h.bound dev (List.mem_of_getElem? hk)

/-- A step of `vpci_remove` keeps the invariant: `vpci_put_id`. -/
theorem CoreInv.removePutId (h : CoreInv s) {k dev : ℕ} (hk : s.removing[k]? = some (.putId dev)) :
    CoreInv { s.setIdr (s.id dev) none with removing := s.removing.set k (.kfree dev) } := by
  have hput : CoreInv (s.setIdr (s.id dev) none) := h.setIdr (s.id dev) (by simp)
  refine hput.setRemoving hput.bound fun pc hpc => ?_
  rcases List.mem_or_eq_of_mem_set hpc with hpc | rfl
  · exact hput.removing pc hpc
  · refine ⟨h.removing _ (List.mem_of_getElem? hk), fun i hi => ?_⟩
    rcases VpciCore.setIdr_cases hi with ⟨-, heq⟩ | hi'
    · exact absurd heq (by simp)
    · obtain ⟨-, rfl⟩ := h.idr i dev hi'
      exact absurd ((VpciCore.setIdr_self ..).symm.trans hi) (by simp)

/-- A step of `vpci_remove` keeps the invariant when nothing uses the device: `kfree`. -/
theorem CoreInv.removeKfree (h : CoreInv s) {k dev : ℕ} (hk : s.removing[k]? = some (.kfree dev))
    (hfiles : ∀ file ∈ s.files, file.dev ≠ dev) (hreleasing : dev ∉ s.releasing) :
    CoreInv { s.emit (.kfree dev) with removing := s.removing.eraseIdx k } := by
  obtain ⟨hprobed, hidr⟩ := h.removing _ (List.mem_of_getElem? hk)
  have hprobing : ∀ pc ∈ s.probing, pc.dev? ≠ some dev := by
    intro pc hpc hdev
    obtain ⟨j, hj⟩ := List.mem_iff_getElem?.mp hpc
    exact ((h.probing.holds j pc hj).unborn hdev).2.1 hprobed
  have hfreed := h.kfree (h.lt dev (Or.inl hprobed)) hidr hprobing hfiles hreleasing
  exact hfreed.setRemoving hfreed.bound fun pc hpc =>
    hfreed.removing pc (List.mem_of_mem_eraseIdx hpc)

/-- Every step keeps the invariant, a `kfree` of a removal when nothing uses the device, and an open when the counter
has room. -/
theorem CoreInv.step {label : CoreStep} {t : VpciCore} (h : CoreInv s)
    (hs : coreMachine.step s label = some t) (hguard : RefsKept s label) : CoreInv t := by
  cases label with
  | probe =>
    simp only [coreMachine] at hs
    split at hs
    next id _ =>
      obtain rfl := Option.some.inj hs
      have hset : CoreInv (s.setIdr id (some none)) := h.setIdr id (by simp)
      refine hset.setProbing (hset.probing.enter trivial fun d => ⟨?_, ?_⟩)
      · exact fun dev hdev => absurd hdev (by simp [ProbePc.dev?])
      · exact fun dev _ hdev => absurd hdev (by simp [ProbePc.dev?])
    next => exact Option.some.inj hs ▸ h
  | probeKzalloc k ok =>
    simp only [coreMachine] at hs
    split at hs
    next id _ =>
      cases ok with
      | true =>
        obtain rfl := Option.some.inj hs
        exact h.probeKzalloc k id
      | false =>
        obtain rfl := Option.some.inj hs
        have hset : CoreInv (s.setIdr id none) := h.setIdr id (by simp)
        exact hset.setProbing (hset.probing.leave fun j d _ hj => hset.probing.holds j d hj)
    next => exact absurd hs (by simp)
  | probeInit k ok =>
    simp only [coreMachine] at hs
    split at hs
    next dev hk =>
      obtain rfl := Option.some.inj hs
      exact h.probeInit hk ok
    next => exact absurd hs (by simp)
  | probeReplace k =>
    simp only [coreMachine] at hs
    split at hs
    next dev hk =>
      obtain rfl := Option.some.inj hs
      exact h.probeReplace hk
    next => exact absurd hs (by simp)
  | probeUndo k =>
    simp only [coreMachine] at hs
    split at hs
    next dev hk =>
      obtain rfl := Option.some.inj hs
      exact h.probeUndo hk
    next => exact absurd hs (by simp)
  | «open» id =>
    obtain rfl := Option.some.inj hs
    exact h.vpciOpen hguard
  | ioctl f loopback cmd net =>
    obtain ⟨file, hf, ht⟩ := Option.map_eq_some_iff.mp hs
    simp only at ht
    split_ifs at ht with hnone
    · exact ht ▸ h
    · subst ht
      refine h.setFile hf fun hmem => ?_
      rcases List.mem_append.mp hmem with hmem | hmem
      · exact (h.files file (List.mem_of_getElem? hf)).2 hmem
      · exact hnone (List.mem_singleton.mp hmem).symm
  | ioctlAccess f k =>
    simp only [coreMachine] at hs
    split at hs
    next file hf =>
      split at hs
      next _ rest _ =>
        obtain rfl := Option.some.inj hs
        exact h.ioctlAccess hf rest
      next => exact absurd hs (by simp)
    next => exact absurd hs (by simp)
  | release f =>
    simp only [coreMachine] at hs
    split at hs
    next dev hf =>
      obtain rfl := Option.some.inj hs
      exact h.release hf
    next => exact absurd hs (by simp)
  | releasePut k =>
    obtain ⟨dev, hk, rfl⟩ := Option.map_eq_some_iff.mp hs
    have hput := h.access (h.releasing dev (List.mem_of_getElem? hk))
    exact hput.setFiles s.refcount hput.files
      (fun d hd => hput.releasing d (List.mem_of_mem_eraseIdx hd))
      hput.refcount fun _ _ => rfl
  | remove k =>
    obtain ⟨dev, hk, rfl⟩ := Option.map_eq_some_iff.mp hs
    exact h.remove hk
  | removePutId k =>
    simp only [coreMachine] at hs
    split at hs
    next dev hk =>
      obtain rfl := Option.some.inj hs
      exact h.removePutId hk
    next => exact absurd hs (by simp)
  | removeKfree k =>
    simp only [coreMachine] at hs
    split at hs
    next dev hk =>
      obtain rfl := Option.some.inj hs
      obtain ⟨hfiles, hreleasing⟩ := hguard dev hk
      exact h.removeKfree hk hfiles hreleasing
    next => exact absurd hs (by simp)

/-- No access of a file operation touches a freed device, wherever the invariant holds. -/
theorem CoreInv.handlesSafe (h : CoreInv s) : HandlesSafe s where
  past := h.log
  next := by
    intro label t ht
    by_cases hfree : ∃ k, label = .removeKfree k
    · obtain ⟨k, rfl⟩ := hfree
      simp only [coreMachine] at ht
      split at ht
      next =>
        obtain rfl := Option.some.inj ht
        exact h.log
      next => exact absurd ht (by simp)
    · by_cases hopen : ∃ id, label = .open id
      · obtain ⟨id, rfl⟩ := hopen
        obtain rfl := Option.some.inj ht
        exact h.vpciOpen_log id
      · refine (h.step ht ?_).log
        cases label <;> first | exact trivial | exact absurd ⟨_, rfl⟩ hfree | exact absurd ⟨_, rfl⟩ hopen
  refcount := fun dev hdev _ => (h.refcount dev hdev).1

/-- A removal that frees a device in use makes an access to it possible, and an open without room a wrong counter. -/
theorem CoreInv.not_handlesSafe (h : CoreInv s) {label : CoreStep} {t : VpciCore}
    (hs : coreMachine.step s label = some t) (hguard : ¬ RefsKept s label) : ¬ HandlesSafe t := by
  cases label with
  | removeKfree k =>
    simp only [RefsKept, not_forall] at hguard
    obtain ⟨dev, hk, hused⟩ := hguard
    have hfreed : FileEvent.kfree dev ∈ t.log := by
      simp only [coreMachine, hk, Option.some.injEq] at hs
      exact hs ▸ List.mem_cons_self
    have hsame : t.files = s.files ∧ t.releasing = s.releasing := by
      simp only [coreMachine, hk, Option.some.injEq] at hs
      exact hs ▸ ⟨rfl, rfl⟩
    -- The handle, or the call of `vpci_release`, has an access to the device ahead.
    intro hsafe
    by_cases hrelease : dev ∈ s.releasing
    · obtain ⟨j, hj⟩ := List.mem_iff_getElem?.mp (hsame.2 ▸ hrelease)
      have hlegal := hsafe.next (.releasePut j) _ (by
        simp only [coreMachine, hj, Option.map_some]; rfl)
      exact hlegal.1 hfreed
    · obtain ⟨file, hfile, rfl⟩ : ∃ file ∈ s.files, file.dev = dev := by
        by_contra hnone
        exact hused ⟨fun file hfile heq => hnone ⟨file, hfile, heq⟩, hrelease⟩
      obtain ⟨f, hf⟩ := List.mem_iff_getElem?.mp (hsame.1 ▸ hfile)
      obtain ⟨dev, ioctls⟩ := file
      cases ioctls with
      | nil =>
        have hlegal := hsafe.next (.release f) _ (by simp only [coreMachine, hf]; rfl)
        exact hlegal.1 hfreed
      | cons accesses ioctls =>
        cases accesses with
        | nil => exact (h.files _ hfile).2 List.mem_cons_self
        | cons a rest =>
          have hlegal := hsafe.next (.ioctlAccess f 0) _ (by
            simp only [coreMachine, hf, List.getElem?_cons_zero]; rfl)
          exact hlegal.1 hfreed
  | «open» id =>
    obtain rfl := Option.some.inj hs
    simp only [RefsKept, not_forall, not_lt] at hguard
    obtain ⟨dev, hid, hfull⟩ := hguard
    exact h.vpciOpen_wraps hid hfull
  | _ => exact absurd trivial hguard

end Steps

/-- The invariant holds before the first probe. -/
theorem coreInv_init : CoreInv vpciCoreInit where
  lt := by simp [vpciCoreInit]
  idr := by simp [vpciCoreInit]
  probing := ⟨by simp [vpciCoreInit], by simp [vpciCoreInit]⟩
  bound := by simp [vpciCoreInit]
  removing := by simp [vpciCoreInit]
  files := by simp [vpciCoreInit]
  releasing := by simp [vpciCoreInit]
  refcount := by simp [vpciCoreInit]
  log := trivial

/-- Along every interleaving, no file operation touches a freed device and the reference counts are
right, exactly when no removal frees a device that a handle is open on or being released, and no handle is opened
that the counter of its device has no room for. -/
theorem handles_safe_iff (labels : List CoreStep) :
    coreMachine.Always HandlesSafe vpciCoreInit labels ↔
      coreMachine.Guarded RefsKept vpciCoreInit labels :=
  coreMachine.always_iff_guarded (fun _ h => h.handlesSafe) (fun _ _ _ h hs hg => h.step hs hg)
    (fun _ _ _ h hs hg => h.not_handlesSafe hs hg) coreInv_init labels

/-- A device is probed and opened, removed while the handle is open, and the handle asks for its
status. -/
theorem handles_unsafe : ¬ coreMachine.Always HandlesSafe vpciCoreInit
    [.probe, .probeKzalloc 0 true, .probeInit 0 true, .probeReplace 0, .open 0, .remove 0,
      .removePutId 0, .removeKfree 0, .ioctl 0 false .getStatus 0, .ioctlAccess 0 0] := by
  intro h
  have hpast : UseLegal [.access 0, .kfree 0, .access 0] :=
    (h.of_reached coreMachine (List.prefix_refl _) rfl).past
  exact hpast.1 List.mem_cons_self

end LinuxFunctionTest.VirtualPcie
