import LinuxFunctionTest.VirtualPcie.ConfigSpace
import LinuxFunctionTest.Library.Window

/-!
# BAR windows

`vpci_mem_read` and `vpci_mem_write` look for the first mapped BAR that contains the interval and
copy through the pointer that `ioremap` returned for it. Several BARs may show the same physical
bytes, so the memory here is the physical one, and a mapped pointer reaches it by translation. That a
mapping shows the physical addresses of its BAR in order is what `ioremap` promises.
-/

namespace LinuxFunctionTest.VirtualPcie

open ByteStore Errno

/-- The physical bytes, and the physical address that an I/O pointer reaches. -/
structure IoMemory where
  phys : UInt64 → UInt8
  translate : UInt64 → UInt64

namespace IoMemory

/-- The byte at a physical address. -/
def byte (io : IoMemory) (i : ℕ) : UInt8 := io.phys (UInt64.ofNat i)

/-- The physical addresses that a copy of `len` bytes through a pointer reaches, in order. -/
def reached (io : IoMemory) (ptr : UInt64) (len : ℕ) : List UInt64 :=
  (List.range len).map fun i => io.translate (ptr + UInt64.ofNat i)

/-- Every mapped BAR shows its physical addresses in order. -/
def Maps (io : IoMemory) (bars : List VpciBarInfo) : Prop :=
  ∀ bar ∈ bars, ∀ base, bar.addr = some base → ∀ off < bar.size.toNat,
    io.translate (base + UInt64.ofNat off) = bar.physAddr + UInt64.ofNat off

end IoMemory

/-- `memcpy_fromio`. -/
def memcpyFromio (io : IoMemory) (ptr : UInt64) (len : ℕ) : List UInt8 :=
  (io.reached ptr len).map io.phys

/-- Store bytes one after the other through a pointer. -/
def storeBytes (translate : UInt64 → UInt64) (phys : UInt64 → UInt8) (ptr : UInt64) :
    List UInt8 → UInt64 → UInt8
  | [] => phys
  | b :: rest => storeBytes translate (Function.update phys (translate ptr) b) (ptr + 1) rest

/-- `memcpy_toio`. -/
def memcpyToio (io : IoMemory) (ptr : UInt64) (data : List UInt8) : IoMemory :=
  { io with phys := storeBytes io.translate io.phys ptr data }

/-- `vpci_mem_read`, over physical memory. -/
def vpciMemReadIo (dev : VpciDevice) (io : IoMemory) (addr : UInt64) (len : UInt32) :
    Except ℤ (List UInt8) :=
  match findBar dev addr len with
  | some ptr => .ok (memcpyFromio io ptr len.toNat)
  | none => .error (-enxio)

/-- `vpci_mem_write`, over physical memory; `data` holds the first `len` bytes of the buffer. -/
def vpciMemWriteIo (dev : VpciDevice) (io : IoMemory) (addr : UInt64) (data : List UInt8)
    (len : UInt32) : Except ℤ IoMemory :=
  match findBar dev addr len with
  | some ptr => .ok (memcpyToio io ptr data)
  | none => .error (-enxio)

/-- The physical addresses of a BAR. -/
def VpciBarInfo.window (bar : VpciBarInfo) : Window := ⟨bar.physAddr.toNat, bar.size.toNat⟩

/-- Some mapped BAR contains the whole interval. -/
def VpciDevice.BarContains (dev : VpciDevice) (addr : UInt64) (len : UInt32) : Prop :=
  ∃ bar ∈ dev.bars, bar.addr.isSome ∧ bar.window.Contains addr.toNat len.toNat

/-- The interval wraps around into some mapped BAR. -/
def VpciDevice.BarWraps (dev : VpciDevice) (addr : UInt64) (len : UInt32) : Prop :=
  ∃ bar ∈ dev.bars, bar.addr.isSome ∧ bar.window.WrapsInto addr.toNat len.toNat

instance (dev : VpciDevice) (addr : UInt64) (len : UInt32) : Decidable (dev.BarContains addr len) :=
  inferInstanceAs (Decidable (∃ bar ∈ dev.bars, _ ∧ _))

instance (dev : VpciDevice) (addr : UInt64) (len : UInt32) : Decidable (dev.BarWraps addr len) :=
  inferInstanceAs (Decidable (∃ bar ∈ dev.bars, _ ∧ _))

/-- The physical addresses of every BAR are 64-bit words, the end included. -/
def VpciDevice.BarsRepresentable (dev : VpciDevice) : Prop :=
  ∀ bar ∈ dev.bars, bar.physAddr.toNat + bar.size.toNat < 2 ^ 64

instance (dev : VpciDevice) : Decidable dev.BarsRepresentable :=
  inferInstanceAs (Decidable (∀ bar ∈ dev.bars, _ < _))

section Route

variable {dev : VpciDevice} {io : IoMemory} {addr ptr : UInt64} {len : UInt32}

/-- A BAR passes the check of the search when the interval lies inside it or wraps around into it. -/
theorem bar_passes_iff (hend : dev.BarsRepresentable) {bar : VpciBarInfo} (hbar : bar ∈ dev.bars) :
    bar.physAddr ≤ addr ∧ addr + len.toUInt64 ≤ bar.physAddr + bar.size ↔
      bar.window.Contains addr.toNat len.toNat ∨ bar.window.WrapsInto addr.toNat len.toNat := by
  rw [Window.words_iff (hend bar hbar), UInt32.toNat_toUInt64]
  rfl

/-- A pointer that the search returns belongs to a mapped BAR that passes the check. -/
theorem findBar_spec (h : findBar dev addr len = some ptr) :
    ∃ bar ∈ dev.bars, ∃ base, bar.addr = some base ∧
      (bar.physAddr ≤ addr ∧ addr + len.toUInt64 ≤ bar.physAddr + bar.size) ∧
      ptr = base + (addr - bar.physAddr) := by
  obtain ⟨bar, hbar, hfound⟩ := List.exists_of_findSome?_eq_some h
  obtain ⟨base, hbase, hcheck⟩ := Option.bind_eq_some_iff.mp hfound
  split_ifs at hcheck with hpasses
  exact ⟨bar, hbar, base, hbase, hpasses, (Option.some.inj hcheck).symm⟩

/-- The search finds a BAR exactly when some mapped BAR contains the interval, or it wraps around into
one. -/
theorem findBar_isSome_iff (hend : dev.BarsRepresentable) :
    (findBar dev addr len).isSome ↔ dev.BarContains addr len ∨ dev.BarWraps addr len := by
  constructor
  · intro h
    obtain ⟨ptr, hptr⟩ := Option.isSome_iff_exists.mp h
    obtain ⟨bar, hbar, base, hbase, hpasses, -⟩ := findBar_spec hptr
    have hmapped : bar.addr.isSome := by simp [hbase]
    rcases (bar_passes_iff hend hbar).mp hpasses with hin | hwraps
    · exact .inl ⟨bar, hbar, hmapped, hin⟩
    · exact .inr ⟨bar, hbar, hmapped, hwraps⟩
  · intro h
    obtain ⟨bar, hbar, hmapped, hpasses⟩ : ∃ bar ∈ dev.bars, bar.addr.isSome ∧
        (bar.physAddr ≤ addr ∧ addr + len.toUInt64 ≤ bar.physAddr + bar.size) := by
      rcases h with ⟨bar, hbar, hmapped, hin⟩ | ⟨bar, hbar, hmapped, hwraps⟩
      · exact ⟨bar, hbar, hmapped, (bar_passes_iff hend hbar).mpr (.inl hin)⟩
      · exact ⟨bar, hbar, hmapped, (bar_passes_iff hend hbar).mpr (.inr hwraps)⟩
    obtain ⟨base, hbase⟩ := Option.isSome_iff_exists.mp hmapped
    rw [findBar, List.findSome?_isSome_iff]
    exact ⟨bar, hbar, by simp [hbase, hpasses]⟩

/-- An interval that wraps around lies inside no BAR. -/
theorem not_barContains_of_barWraps (hend : dev.BarsRepresentable) (h : dev.BarWraps addr len) :
    ¬ dev.BarContains addr len := by
  rintro ⟨bar, hbar, -, -, hin⟩
  obtain ⟨-, -, -, -, hwraps, -⟩ := h
  have hrep := hend bar hbar
  simp only [VpciBarInfo.window] at hin
  omega

/-- Whichever BAR is found, its pointer reaches the physical addresses of the interval. -/
theorem findBar_translate (hend : dev.BarsRepresentable) (hmaps : io.Maps dev.bars)
    (hnowrap : ¬ dev.BarWraps addr len) (h : findBar dev addr len = some ptr) {i : ℕ}
    (hi : i < len.toNat) : io.translate (ptr + UInt64.ofNat i) = addr + UInt64.ofNat i := by
  obtain ⟨bar, hbar, base, hbase, hpasses, rfl⟩ := findBar_spec h
  have hin : bar.window.Contains addr.toNat len.toNat := by
    refine ((bar_passes_iff hend hbar).mp hpasses).resolve_right fun hwraps => hnowrap ?_
    exact ⟨bar, hbar, by simp [hbase], hwraps⟩
  obtain ⟨hstart, hstop⟩ := hin
  simp only [VpciBarInfo.window] at hstart hstop
  have hoff : (addr - bar.physAddr).toNat = addr.toNat - bar.physAddr.toNat :=
    UInt64.toNat_sub_of_le _ _ hpasses.1
  have hreach := hmaps bar hbar base hbase ((addr - bar.physAddr).toNat + i) (by omega)
  rw [UInt64.ofNat_add, UInt64.ofNat_toNat, ← UInt64.add_assoc, ← UInt64.add_assoc] at hreach
  rw [hreach, UInt64.add_comm bar.physAddr, UInt64.sub_add_cancel]

/-- Outside the BARs nothing is found. -/
theorem findBar_eq_none (hend : dev.BarsRepresentable) (hnowrap : ¬ dev.BarWraps addr len)
    (hout : ¬ dev.BarContains addr len) : findBar dev addr len = none := by
  rw [← Option.not_isSome_iff_eq_none, findBar_isSome_iff hend]
  exact not_or.mpr ⟨hout, hnowrap⟩

end Route

section Copies

/-- Storing the first byte and then the others is one store. -/
theorem writeMem_cons {phys : UInt64 → UInt8} {addr : UInt64} {b : UInt8} {rest : List UInt8}
    (hlen : rest.length < 2 ^ 64) :
    writeMem (Function.update phys addr b) (addr + 1) rest = writeMem phys addr (b :: rest) := by
  funext p
  have hp := p.toNat_lt
  have haddr := addr.toNat_lt
  have hnext : (p - (addr + 1)).toNat = (2 ^ 64 - (addr.toNat + 1) % 2 ^ 64 + p.toNat) % 2 ^ 64 := by
    rw [UInt64.toNat_sub, UInt64.toNat_add]
    rfl
  by_cases h : p = addr
  · subst h
    have hfar : rest.length ≤ (p - (p + 1)).toNat := by omega
    have hzero : (p - p).toNat = 0 := by rw [UInt64.sub_self]; rfl
    rw [writeMem, writeMem, List.getD_eq_getElem?_getD, List.getElem?_eq_none hfar, Option.getD_none,
      Function.update_self, hzero, List.getD_cons_zero]
  · have hne : p.toNat ≠ addr.toNat := fun heq => h (UInt64.toNat_inj.mp heq)
    have hsucc : (p - addr).toNat = (p - (addr + 1)).toNat + 1 := by
      rw [hnext, UInt64.toNat_sub]
      omega
    rw [writeMem, writeMem, hsucc, List.getD_cons_succ, Function.update_of_ne h]

/-- Bytes stored through a pointer end up at the physical addresses that it reaches. -/
theorem storeBytes_eq {translate : UInt64 → UInt64} {phys : UInt64 → UInt8} {ptr addr : UInt64}
    {data : List UInt8} (hlen : data.length ≤ 2 ^ 64)
    (h : ∀ i < data.length, translate (ptr + UInt64.ofNat i) = addr + UInt64.ofNat i) :
    storeBytes translate phys ptr data = writeMem phys addr data := by
  induction data generalizing phys ptr addr with
  | nil => rfl
  | cons b rest ih =>
    rw [List.length_cons] at hlen
    have hfirst : translate ptr = addr := by simpa using h 0 (by simp)
    have hrest : ∀ i < rest.length, translate (ptr + 1 + UInt64.ofNat i) =
        addr + 1 + UInt64.ofNat i := by
      intro i hi
      have hnext := h (i + 1) (by simpa using hi)
      rwa [Nat.add_comm, UInt64.ofNat_add, ← UInt64.add_assoc, ← UInt64.add_assoc] at hnext
    rw [storeBytes, ih (by omega) hrest, hfirst, writeMem_cons (by omega)]

/-- Over a memory without translation the copies are those of the flat memory. -/
theorem memcpyToio_id (mem : UInt64 → UInt8) (ptr : UInt64) {data : List UInt8}
    (hlen : data.length ≤ 2 ^ 64) : (memcpyToio ⟨mem, id⟩ ptr data).phys = writeMem mem ptr data :=
  storeBytes_eq hlen fun _ _ => rfl

/-- A store at a physical address is a write of the byte store. -/
theorem writeMem_byte {phys : UInt64 → UInt8} {addr : UInt64} {data : List UInt8} {i : ℕ}
    (hend : addr.toNat + data.length ≤ 2 ^ 64) (hi : i < 2 ^ 64) :
    writeMem phys addr data (UInt64.ofNat i) =
      ((⟨addr.toNat, data⟩ : Write UInt8).get? i).getD (phys (UInt64.ofNat i)) := by
  have haddr := addr.toNat_lt
  have hoff : (UInt64.ofNat i - addr).toNat =
      if addr.toNat ≤ i then i - addr.toNat else 2 ^ 64 + i - addr.toNat := by
    rw [UInt64.toNat_sub, UInt64.toNat_ofNat']
    split_ifs <;> omega
  unfold writeMem Write.get?
  rw [hoff, List.getD_eq_getElem?_getD]
  split_ifs with hle
  · rfl
  · rw [List.getElem?_eq_none (by omega)]

end Copies

section Flat

variable (dev : VpciDevice) (addr : UInt64) (len : UInt32)

/-- `vpci_mem_read` of the flat memory is the read without translation. -/
theorem vpciMemRead_eq_io : vpciMemRead dev addr len = vpciMemReadIo dev ⟨dev.mem, id⟩ addr len := by
  unfold vpciMemRead vpciMemReadIo memcpyFromio IoMemory.reached
  simp only [List.map_map]
  rfl

/-- `vpci_mem_write` of the flat memory is the write without translation. -/
theorem vpciMemWrite_eq_io {data : List UInt8} (hlen : data.length ≤ 2 ^ 64) :
    vpciMemWrite dev addr data len =
      (vpciMemWriteIo dev ⟨dev.mem, id⟩ addr data len).map fun io => { dev with mem := io.phys } := by
  unfold vpciMemWrite vpciMemWriteIo
  cases findBar dev addr len with
  | none => rfl
  | some ptr => simp only [Except.map, memcpyToio_id dev.mem ptr hlen]

end Flat

/-- A call of `vpci_mem_read` or `vpci_mem_write`; the first bytes of the buffer are written. -/
inductive BarAccess where
  | read (addr : UInt64) (len : UInt32)
  | write (addr : UInt64) (len : UInt32) (buf : ℕ → UInt8)

namespace BarAccess

/-- The address of the access. -/
def addr : BarAccess → UInt64
  | .read addr _ => addr
  | .write addr _ _ => addr

/-- The length of the access. -/
def len : BarAccess → UInt32
  | .read _ len => len
  | .write _ len _ => len

/-- What the access is to write. -/
def written : BarAccess → Option (Write UInt8)
  | .read _ _ => none
  | .write addr len buf => some ⟨addr.toNat, (List.range len.toNat).map buf⟩

/-- What the access is to return, from the values of the physical bytes. -/
def answer (values : ℕ → UInt8) : BarAccess → List UInt8
  | .read addr len => ByteStore.read values addr.toNat len.toNat
  | .write _ _ _ => []

end BarAccess

/-- One access: the bytes it returns and the memory afterwards, or its error. -/
def barAccess (dev : VpciDevice) (io : IoMemory) : BarAccess → Except ℤ (List UInt8 × IoMemory)
  | .read addr len => (vpciMemReadIo dev io addr len).map fun data => (data, io)
  | .write addr len buf =>
    (vpciMemWriteIo dev io addr ((List.range len.toNat).map buf) len).map fun io => ([], io)

/-- The physical addresses that an access reads or writes. -/
def barReached (dev : VpciDevice) (io : IoMemory) (access : BarAccess) : List UInt64 :=
  match findBar dev access.addr access.len with
  | some ptr => io.reached ptr access.len.toNat
  | none => []

/-- Accesses to the BARs of a device; one that fails leaves the memory as it is. -/
def barMachine (dev : VpciDevice) : Machine IoMemory BarAccess where
  step io access := some <|
    match barAccess dev io access with
    | .ok (_, io') => io'
    | .error _ => io

/-- The writes of a run that lie inside some BAR, newest first. -/
def barWrites (dev : VpciDevice) (accesses : List BarAccess) : List (Write UInt8) :=
  (accesses.reverse.filter fun access => dev.BarContains access.addr access.len).filterMap
    BarAccess.written

/-- The values that the physical bytes have after a run. -/
def barValues (dev : VpciDevice) (io : IoMemory) (front : List BarAccess) (i : ℕ) :
    UInt8 :=
  lastWritten (io.byte i) (barWrites dev front) i

/-- One access after a run is routed exactly: it succeeds when some mapped BAR contains its interval,
and then accesses the physical bytes of the interval, a read returning the last values written there
and a write replacing them; otherwise it fails with `-ENXIO` and accesses nothing. -/
structure BarExact (dev : VpciDevice) (start : IoMemory) (front : List BarAccess) (io : IoMemory)
    (access : BarAccess) : Prop where
  success : dev.BarContains access.addr access.len → ∃ io',
    barAccess dev io access = .ok (access.answer (barValues dev start front), io') ∧
      (barReached dev io access).map UInt64.toNat =
        List.range' access.addr.toNat access.len.toNat ∧
      ∀ i < 2 ^ 64, io'.byte i = barValues dev start (front ++ [access]) i
  failure : ¬ dev.BarContains access.addr access.len →
    barAccess dev io access = .error (-enxio) ∧ barReached dev io access = []

/-- The mappings are in place and the physical bytes hold the values of the run so far. -/
structure BarHolds (dev : VpciDevice) (start : IoMemory) (front : List BarAccess) (io : IoMemory) :
    Prop where
  maps : io.Maps dev.bars
  bytes : ∀ i < 2 ^ 64, io.byte i = barValues dev start front i

section Runs

variable {dev : VpciDevice} {start io io' : IoMemory} {front : List BarAccess}
  {addr ptr : UInt64} {len : UInt32}

/-- An interval inside a BAR ends at a representable address. -/
theorem VpciDevice.BarContains.end_lt (hend : dev.BarsRepresentable)
    (h : dev.BarContains addr len) : addr.toNat + len.toNat < 2 ^ 64 := by
  obtain ⟨bar, hbar, -, -, hin⟩ := h
  have hrep := hend bar hbar
  simp only [VpciBarInfo.window] at hin
  omega

/-- The physical addresses of an interval that does not wrap around. -/
theorem reached_toNat (hlt : addr.toNat + len.toNat < 2 ^ 64)
    (h : ∀ i < len.toNat, io.translate (ptr + UInt64.ofNat i) = addr + UInt64.ofNat i) :
    (io.reached ptr len.toNat).map UInt64.toNat = List.range' addr.toNat len.toNat := by
  rw [IoMemory.reached, List.map_map, List.range'_eq_map_range]
  apply List.map_congr_left
  intro i hi
  have hi := List.mem_range.mp hi
  rw [Function.comp_apply, h i hi, UInt64.toNat_add, UInt64.toNat_ofNat']
  omega

/-- A copy from I/O memory returns the physical bytes of the interval. -/
theorem memcpyFromio_eq
    (h : ∀ i < len.toNat, io.translate (ptr + UInt64.ofNat i) = addr + UInt64.ofNat i) :
    memcpyFromio io ptr len.toNat = ByteStore.read io.byte addr.toNat len.toNat := by
  rw [memcpyFromio, IoMemory.reached, List.map_map, ByteStore.read]
  apply List.map_congr_left
  intro i hi
  rw [Function.comp_apply, h i (List.mem_range.mp hi), IoMemory.byte, UInt64.ofNat_add,
    UInt64.ofNat_toNat]

/-- The last access of a run counts as a write when it lies inside some BAR. -/
theorem barWrites_append (front : List BarAccess) (access : BarAccess) :
    barWrites dev (front ++ [access]) =
      (if dev.BarContains access.addr access.len then access.written.toList else []) ++
        barWrites dev front := by
  unfold barWrites
  rw [List.reverse_append, List.reverse_singleton, List.singleton_append, List.filter_cons]
  by_cases hin : dev.BarContains access.addr access.len
  · simp only [hin, decide_true, if_true, List.filterMap_cons]
    cases access.written <;> rfl
  · simp only [hin, decide_false, if_false, Bool.false_eq_true, List.nil_append]

/-- An access that writes nothing keeps the values. -/
theorem barValues_append_of_not_written {access : BarAccess}
    (h : access.written = none ∨ ¬ dev.BarContains access.addr access.len) :
    barValues dev start (front ++ [access]) = barValues dev start front := by
  funext i
  rw [barValues, barWrites_append]
  rcases h with h | h
  · rw [h, Option.toList_none, ite_self]
    rfl
  · rw [if_neg h]
    rfl

/-- A write inside some BAR comes first. -/
theorem barValues_append_write {buf : ℕ → UInt8} (h : dev.BarContains addr len) (i : ℕ) :
    barValues dev start (front ++ [.write addr len buf]) i =
      ((⟨addr.toNat, (List.range len.toNat).map buf⟩ : Write UInt8).get? i).getD
        (barValues dev start front i) := by
  have hin : dev.BarContains (BarAccess.write addr len buf).addr (BarAccess.write addr len buf).len :=
    h
  rw [barValues, barWrites_append, if_pos hin]
  exact lastWritten_cons _ _ _ _

/-- Inside some BAR, and without wrapping around, a read returns the physical bytes of the interval and
reaches these alone. -/
theorem vpciMemReadIo_inside (hend : dev.BarsRepresentable) (hmaps : io.Maps dev.bars)
    (hnowrap : ¬ dev.BarWraps addr len) (hin : dev.BarContains addr len) :
    vpciMemReadIo dev io addr len = .ok (ByteStore.read io.byte addr.toNat len.toNat) ∧
      (barReached dev io (.read addr len)).map UInt64.toNat = List.range' addr.toNat len.toNat := by
  obtain ⟨ptr, hptr⟩ := Option.isSome_iff_exists.mp ((findBar_isSome_iff hend).mpr (.inl hin))
  have htranslate : ∀ i < len.toNat,
      io.translate (ptr + UInt64.ofNat i) = addr + UInt64.ofNat i :=
    fun i hi => findBar_translate hend hmaps hnowrap hptr hi
  simp only [vpciMemReadIo, barReached, BarAccess.addr, BarAccess.len, hptr,
    memcpyFromio_eq htranslate, reached_toNat (hin.end_lt hend) htranslate, and_self]

/-- There a write replaces the physical bytes of the interval and reaches these alone. -/
theorem vpciMemWriteIo_inside (hend : dev.BarsRepresentable) (hmaps : io.Maps dev.bars)
    (hnowrap : ¬ dev.BarWraps addr len) (hin : dev.BarContains addr len) (buf : ℕ → UInt8) :
    vpciMemWriteIo dev io addr ((List.range len.toNat).map buf) len =
        .ok { io with phys := writeMem io.phys addr ((List.range len.toNat).map buf) } ∧
      (barReached dev io (.write addr len buf)).map UInt64.toNat =
        List.range' addr.toNat len.toNat := by
  obtain ⟨ptr, hptr⟩ := Option.isSome_iff_exists.mp ((findBar_isSome_iff hend).mpr (.inl hin))
  have htranslate : ∀ i < len.toNat,
      io.translate (ptr + UInt64.ofNat i) = addr + UInt64.ofNat i :=
    fun i hi => findBar_translate hend hmaps hnowrap hptr hi
  have hlt := hin.end_lt hend
  have hlen : ((List.range len.toNat).map buf).length = len.toNat := by simp
  have hstore : storeBytes io.translate io.phys ptr ((List.range len.toNat).map buf) =
      writeMem io.phys addr ((List.range len.toNat).map buf) :=
    storeBytes_eq (by omega) fun i hi => htranslate i (hlen ▸ hi)
  simp only [vpciMemWriteIo, memcpyToio, barReached, BarAccess.addr, BarAccess.len, hptr, hstore,
    reached_toNat hlt htranslate, and_self]

/-- Every access that does not wrap around is routed exactly. -/
theorem barAccess_exact (hend : dev.BarsRepresentable) (h : BarHolds dev start front io)
    {access : BarAccess} (hnowrap : ¬ dev.BarWraps access.addr access.len) :
    BarExact dev start front io access := by
  refine ⟨fun hin => ?_, fun hout => ?_⟩
  · have hlt := hin.end_lt hend
    cases access with
    | read addr len =>
      simp only [BarAccess.addr, BarAccess.len] at hnowrap hin hlt
      obtain ⟨hread, hreached⟩ := vpciMemReadIo_inside hend h.maps hnowrap hin
      have hvalues : ByteStore.read io.byte addr.toNat len.toNat =
          ByteStore.read (barValues dev start front) addr.toNat len.toNat :=
        read_congr fun i _ hi => h.bytes i (hi.trans hlt)
      refine ⟨io, ?_, hreached, fun i hi => ?_⟩
      · rw [barAccess, hread, BarAccess.answer, ← hvalues]
        rfl
      · rw [barValues_append_of_not_written (.inl rfl), h.bytes i hi]
    | write addr len buf =>
      simp only [BarAccess.addr, BarAccess.len] at hnowrap hin hlt
      obtain ⟨hwrite, hreached⟩ := vpciMemWriteIo_inside hend h.maps hnowrap hin buf
      have hlen : ((List.range len.toNat).map buf).length = len.toNat := by simp
      refine ⟨_, by rw [barAccess, hwrite]; rfl, hreached, fun i hi => ?_⟩
      rw [barValues_append_write hin, ← h.bytes i hi]
      exact writeMem_byte (by rw [hlen]; exact hlt.le) hi
  · have hnone := findBar_eq_none hend hnowrap hout
    refine ⟨?_, by rw [barReached, hnone]⟩
    cases access with
    | read addr len =>
      have hnone : findBar dev addr len = none := hnone
      rw [barAccess, vpciMemReadIo, hnone]
      rfl
    | write addr len buf =>
      have hnone : findBar dev addr len = none := hnone
      rw [barAccess, vpciMemWriteIo, hnone]
      rfl

/-- One access that does not wrap around takes the memory from one prefix of a run to the next. -/
theorem BarHolds.step (hend : dev.BarsRepresentable) (h : BarHolds dev start front io)
    {access : BarAccess} (hnowrap : ¬ dev.BarWraps access.addr access.len)
    (hstep : (barMachine dev).step io access = some io') :
    BarHolds dev start (front ++ [access]) io' := by
  have hexact := barAccess_exact hend h hnowrap
  obtain rfl := Option.some.inj hstep
  constructor
  · cases access with
    | read addr len =>
      simp only [barAccess, vpciMemReadIo]
      cases findBar dev addr len <;> exact h.maps
    | write addr len buf =>
      simp only [barAccess, vpciMemWriteIo]
      cases findBar dev addr len <;> exact h.maps
  · intro i hi
    by_cases hin : dev.BarContains access.addr access.len
    · obtain ⟨io', hok, -, hbytes⟩ := hexact.success hin
      rw [hok]
      exact hbytes i hi
    · rw [(hexact.failure hin).1, barValues_append_of_not_written (.inr hin)]
      exact h.bytes i hi

/-- The memory after a run without accesses that wrap around. -/
theorem barHolds_run (hend : dev.BarsRepresentable) (hmaps : start.Maps dev.bars)
    (hnowrap : ∀ access ∈ front, ¬ dev.BarWraps access.addr access.len)
    (hrun : (barMachine dev).run start front = some io) : BarHolds dev start front io := by
  induction front using List.reverseRecOn generalizing io with
  | nil =>
    obtain rfl := Option.some.inj hrun
    exact ⟨hmaps, fun i _ => rfl⟩
  | append_singleton front access ih =>
    rw [Machine.run_append] at hrun
    obtain ⟨mid, hmid, hstep⟩ := Option.bind_eq_some_iff.mp hrun
    obtain ⟨last, hlast, hlast'⟩ := Option.bind_eq_some_iff.mp hstep
    obtain rfl := Option.some.inj hlast'
    have hfront : ∀ a ∈ front, ¬ dev.BarWraps a.addr a.len :=
      fun a ha => hnowrap a (List.mem_append_left _ ha)
    exact (ih hfront hmid).step hend (hnowrap access (by simp)) hlast

/-- No access fails to run. -/
theorem barMachine_runs (dev : VpciDevice) (start : IoMemory) (accesses : List BarAccess) :
    ∃ io, (barMachine dev).run start accesses = some io := by
  induction accesses generalizing start with
  | nil => exact ⟨start, rfl⟩
  | cons access rest ih => exact ih _

/-- An access that wraps around into a mapped BAR succeeds outside every BAR. -/
theorem not_barExact_of_barWraps (hend : dev.BarsRepresentable) {access : BarAccess}
    (hwraps : dev.BarWraps access.addr access.len) : ¬ BarExact dev start front io access := by
  intro hexact
  have hfail := (hexact.failure (not_barContains_of_barWraps hend hwraps)).1
  obtain ⟨ptr, hptr⟩ := Option.isSome_iff_exists.mp ((findBar_isSome_iff hend).mpr (.inr hwraps))
  cases access with
  | read addr len =>
    simp only [BarAccess.addr, BarAccess.len] at hptr
    rw [barAccess, vpciMemReadIo, hptr] at hfail
    exact absurd hfail (by simp [Except.map])
  | write addr len buf =>
    simp only [BarAccess.addr, BarAccess.len] at hptr
    rw [barAccess, vpciMemWriteIo, hptr] at hfail
    exact absurd hfail (by simp [Except.map])

/-- In a run of accesses to any table of BARs, each access is routed exactly if and only if no access
wraps around into a mapped BAR. -/
theorem vpciMem_exact_iff (hend : dev.BarsRepresentable) (hmaps : start.Maps dev.bars)
    (accesses : List BarAccess) :
    (∀ front access, front ++ [access] <+: accesses → ∀ io,
        (barMachine dev).run start front = some io → BarExact dev start front io access) ↔
      ∀ access ∈ accesses, ¬ dev.BarWraps access.addr access.len := by
  constructor
  · intro h access hmem hwraps
    obtain ⟨front, rest, rfl⟩ := List.append_of_mem hmem
    obtain ⟨io, hio⟩ := barMachine_runs dev start front
    refine not_barExact_of_barWraps hend hwraps (h front access ⟨rest, ?_⟩ io hio)
    rw [List.append_assoc, List.singleton_append]
  · intro h front access hfront io hrun
    have hmem : ∀ a ∈ front ++ [access], ¬ dev.BarWraps a.addr a.len :=
      fun a ha => h a (hfront.subset ha)
    have hholds := barHolds_run hend hmaps (fun a ha => hmem a (List.mem_append_left _ ha)) hrun
    exact barAccess_exact hend hholds (hmem access (by simp))

end Runs

/-- A device with two BARs that overlap in eight bytes. -/
def vpciOverlapping : VpciDevice :=
  { vpciConnected with
    bars := [⟨0x1000, 0x10, some 0x5000⟩, ⟨0x2000, 0x10, none⟩, ⟨0x1008, 0x10, some 0x6000⟩] }

/-- Its mappings, over zeroed memory. -/
def overlappingIo : IoMemory where
  phys _ := 0
  translate p := if p < 0x6000 then p - 0x4000 else p - 0x4ff8

/-- The mappings show the physical addresses of both BARs. -/
theorem overlappingIo_maps : overlappingIo.Maps vpciOverlapping.bars := by
  intro bar hbar base hbase
  simp only [vpciOverlapping, List.mem_cons, List.not_mem_nil, or_false] at hbar
  rcases hbar with rfl | rfl | rfl
  · obtain rfl := Option.some.inj hbase
    decide
  · exact absurd hbase (by simp)
  · obtain rfl := Option.some.inj hbase
    decide

/-- A write through the first BAR and a read through the other one. -/
theorem vpciMem_exact_overlap :
    BarExact vpciOverlapping overlappingIo [.write 0x100c 4 fun i => UInt8.ofNat i]
      (memcpyToio overlappingIo 0x500c [0, 1, 2, 3]) (.read 0x1008 0x10) :=
  (vpciMem_exact_iff (by decide) overlappingIo_maps
    [.write 0x100c 4 fun i => UInt8.ofNat i, .read 0x1008 0x10]).mpr (by decide)
    [.write 0x100c 4 fun i => UInt8.ofNat i] (.read 0x1008 0x10) (List.prefix_refl _) _ rfl

/-- One byte at the last physical address is read through a BAR that ends far below. -/
theorem vpciMemRead_wraps :
    ¬ ∀ front access, front ++ [access] <+: [BarAccess.read 0xffffffffffffffff 1] → ∀ io,
      (barMachine vpciOverlapping).run overlappingIo front = some io →
        BarExact vpciOverlapping overlappingIo front io access := by
  intro h
  have hexact := h [] (.read 0xffffffffffffffff 1) (List.prefix_refl _) overlappingIo rfl
  have hfail := (hexact.failure (by decide)).2
  exact absurd hfail (by decide)

end LinuxFunctionTest.VirtualPcie
