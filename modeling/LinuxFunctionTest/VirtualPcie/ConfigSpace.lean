import LinuxFunctionTest.VirtualPcie.Packet
import LinuxFunctionTest.Library.ByteStore
import LinuxFunctionTest.Library.Machine

/-!
# Config space

The config space of a device has two access paths: CONFIG_READ and CONFIG_WRITE packets, and the
functions `vpci_config_read` and `vpci_config_write` of `virtual_pcie_shmem.c`. The packet handlers
do not call the functions but repeat the check and the copy. Accesses inside the config space behave
as one array of bytes, whichever path they take.
-/

namespace LinuxFunctionTest.VirtualPcie

open Bytes ByteStore Errno

/-- `vpci_config_read`. -/
def vpciConfigRead (dev : VpciDevice) (addr : UInt64) (len : UInt32) : Except ℤ (List UInt8) :=
  if addr + len.toUInt64 > dev.configSize then .error (-erange)
  else .ok (readMem dev.mem (dev.configSpace + addr) len.toNat)

/-- `vpci_config_write`; `data` holds the first `len` bytes of the buffer. -/
def vpciConfigWrite (dev : VpciDevice) (addr : UInt64) (data : List UInt8) (len : UInt32) :
    Except ℤ VpciDevice :=
  if addr + len.toUInt64 > dev.configSize then .error (-erange)
  else .ok { dev with mem := writeMem dev.mem (dev.configSpace + addr) data }

/-- An access to the config space: a packet that is processed, or a call of one of the functions. -/
inductive ConfigAccess where
  | packet (c : PktChoice) (pkt : VpciPacket)
  | read (addr : UInt64) (len : UInt32)
  | write (addr : UInt64) (data : List UInt8) (len : UInt32)

namespace ConfigAccess

/-- The address and the length of the access. -/
def interval : ConfigAccess → UInt64 × UInt32
  | .packet _ pkt => (swap64 pkt.hdr.address, swap32 pkt.hdr.length)
  | .read addr len => (addr, len)
  | .write addr _ len => (addr, len)

/-- A packet is a CONFIG_READ or a CONFIG_WRITE with the right magic and comes with a payload of
`hdr.length` bytes, and its allocations succeed. A call writes as many bytes as it says. -/
def WellFormed : ConfigAccess → Prop
  | .packet c pkt => swap32 pkt.hdr.magic = vpciMagic ∧
      (pkt.hdr.type = vpciMsgConfigRead ∨ pkt.hdr.type = vpciMsgConfigWrite) ∧
      pkt.data.length = (swap32 pkt.hdr.length).toNat ∧ c.Allocates
  | .read _ _ => True
  | .write _ data len => data.length = len.toNat

instance (c : PktChoice) : Decidable c.Allocates :=
  inferInstanceAs (Decidable (_ ∧ _ ∧ _ ∧ _))

instance : DecidablePred WellFormed := fun access =>
  match access with
  | .packet _ _ => inferInstanceAs (Decidable (_ ∧ (_ ∨ _) ∧ _ ∧ _))
  | .read _ _ => inferInstanceAs (Decidable True)
  | .write _ _ _ => inferInstanceAs (Decidable (_ = _))

/-- The interval of the access lies inside the config space. -/
def Inside (access : ConfigAccess) (dev : VpciDevice) : Prop :=
  access.interval.1.toNat + access.interval.2.toNat ≤ dev.configSize.toNat

instance (access : ConfigAccess) (dev : VpciDevice) : Decidable (access.Inside dev) :=
  inferInstanceAs (Decidable (_ ≤ _))

/-- What the access writes. -/
def written : ConfigAccess → Option (Write UInt8)
  | .packet _ pkt =>
    if pkt.hdr.type = vpciMsgConfigWrite then some ⟨(swap64 pkt.hdr.address).toNat, pkt.data⟩ else none
  | .read _ _ => none
  | .write addr data _ => some ⟨addr.toNat, data⟩

/-- The access asks for the bytes of its interval. -/
def IsRead : ConfigAccess → Prop
  | .packet _ pkt => pkt.hdr.type = vpciMsgConfigRead
  | .read _ _ => True
  | .write _ _ _ => False

end ConfigAccess

/-- The device after an access; a call that fails changes nothing. -/
def configAccess (dev : VpciDevice) : ConfigAccess → VpciDevice
  | .packet c pkt => vpciPacketProcess dev c pkt
  | .read _ _ => dev
  | .write addr data len => (vpciConfigWrite dev addr data len).toOption.getD dev

/-- The bytes an access returns: directly, or in the ACK that it enqueues. -/
def configAnswer (dev : VpciDevice) : ConfigAccess → Option (List UInt8)
  | .packet c pkt =>
    match (vpciPacketProcess dev c pkt).txList.drop dev.txList.length with
    | [ack] => if ack.hdr.type = vpciMsgAck then some ack.data else none
    | _ => none
  | .read addr len => (vpciConfigRead dev addr len).toOption
  | .write _ _ _ => none

/-- Well-formed accesses inside the config space, in any order. -/
def configMachine : Machine VpciDevice ConfigAccess where
  step dev access :=
    if access.WellFormed ∧ access.Inside dev then some (configAccess dev access) else none

/-- The byte at an offset of the config space. -/
def VpciDevice.configByte (dev : VpciDevice) (i : ℕ) : UInt8 :=
  dev.mem (dev.configSpace + UInt64.ofNat i)

/-- A connected device whose config space was allocated with `kzalloc`. -/
structure ConfigFresh (dev : VpciDevice) : Prop where
  connected : dev.connected = true
  zeroed : ∀ i < dev.configSize.toNat, dev.configByte i = 0

/-- The device is connected and holds the most recent values of the writes so far, newest first. -/
structure ConfigHolds (writes : List (Write UInt8)) (dev : VpciDevice) : Prop where
  connected : dev.connected = true
  bytes : ∀ i < dev.configSize.toNat, dev.configByte i = lastWritten 0 writes i

/-- The writes of a run, newest first. -/
def configWrites (accesses : List ConfigAccess) : List (Write UInt8) :=
  accesses.reverse.filterMap ConfigAccess.written

/-- What one access does: a read returns the most recent bytes of its interval, and only bytes of
the interval it writes change. -/
structure ConfigAccessFaithful (writes : List (Write UInt8)) (dev : VpciDevice)
    (access : ConfigAccess) (dev' : VpciDevice) : Prop where
  answer : access.IsRead → configAnswer dev access =
    some (read (lastWritten 0 writes) access.interval.1.toNat access.interval.2.toNat)
  frame : ∀ p, (∀ w, access.written = some w → ∀ i, w.Covers i →
    p ≠ dev.configSpace + UInt64.ofNat i) → dev'.mem p = dev.mem p

section Inside

variable {dev : VpciDevice} {addr : UInt64} {len : UInt32}

/-- The sum of the range check does not wrap for an interval inside the config space. -/
theorem config_inside (h : addr.toNat + len.toNat ≤ dev.configSize.toNat) :
    ¬ addr + len.toUInt64 > dev.configSize := by
  have hsize := dev.configSize.toNat_lt
  have hsum : (addr + len.toUInt64).toNat = addr.toNat + len.toNat := by
    rw [UInt64.toNat_add, UInt32.toNat_toUInt64]
    exact Nat.mod_eq_of_lt (by omega)
  rw [gt_iff_lt, UInt64.lt_iff_toNat_lt, hsum]
  omega

/-- The copy of a read returns the bytes of its interval. -/
theorem readMem_config (dev : VpciDevice) (addr : UInt64) (len : ℕ) :
    readMem dev.mem (dev.configSpace + addr) len = read dev.configByte addr.toNat len := by
  unfold readMem ByteStore.read VpciDevice.configByte
  apply List.map_congr_left
  intro i _
  rw [UInt64.ofNat_add, UInt64.ofNat_toNat, UInt64.add_assoc]

/-- The offset of a config byte from the start of a write. -/
theorem configOffset (base addr : UInt64) {i : ℕ} (hi : i < 2 ^ 64) :
    (base + UInt64.ofNat i - (base + addr)).toNat =
      if addr.toNat ≤ i then i - addr.toNat else 2 ^ 64 + i - addr.toNat := by
  have hbase := base.toNat_lt
  have haddr := addr.toNat_lt
  rw [UInt64.toNat_sub, UInt64.toNat_add, UInt64.toNat_add, UInt64.toNat_ofNat']
  split_ifs <;> omega

/-- The copy of a write puts its bytes into its interval and leaves the other config bytes. -/
theorem writeMem_config {data : List UInt8} (h : addr.toNat + data.length ≤ dev.configSize.toNat)
    {i : ℕ} (hi : i < dev.configSize.toNat) :
    writeMem dev.mem (dev.configSpace + addr) data (dev.configSpace + UInt64.ofNat i) =
      ((⟨addr.toNat, data⟩ : Write UInt8).get? i).getD (dev.configByte i) := by
  have hsize := dev.configSize.toNat_lt
  have haddr := addr.toNat_lt
  unfold writeMem Write.get? VpciDevice.configByte
  rw [configOffset _ _ (hi.trans hsize), List.getD_eq_getElem?_getD]
  split_ifs with hle
  · rfl
  · rw [List.getElem?_eq_none (by omega)]

/-- The copy of a write changes no byte outside its interval. -/
theorem writeMem_frame (dev : VpciDevice) {data : List UInt8} {p : UInt64}
    (hp : ∀ i, (⟨addr.toNat, data⟩ : Write UInt8).Covers i →
      p ≠ dev.configSpace + UInt64.ofNat i) :
    writeMem dev.mem (dev.configSpace + addr) data p = dev.mem p := by
  unfold writeMem
  rw [List.getD_eq_getElem?_getD, List.getElem?_eq_none, Option.getD_none]
  by_contra hlt
  refine hp (addr.toNat + (p - (dev.configSpace + addr)).toNat) ⟨by simp, by simp; omega⟩ ?_
  rw [UInt64.ofNat_add, UInt64.ofNat_toNat, UInt64.ofNat_toNat, ← UInt64.add_assoc, UInt64.add_comm,
    UInt64.sub_add_cancel]

end Inside

section Packets

variable {dev : VpciDevice} {c : PktChoice} {pkt : VpciPacket}

/-- A CONFIG_READ inside the config space is answered by an ACK with the bytes of its interval. -/
theorem vpciHandleConfigRead_inside (hconnected : dev.connected = true) (halloc : c.Allocates)
    (h : (swap64 pkt.hdr.address).toNat + (swap32 pkt.hdr.length).toNat ≤ dev.configSize.toNat) :
    vpciHandleConfigRead dev c pkt =
      { dev with txList := dev.txList ++
          [⟨answerHdr dev vpciMsgAck (swap32 pkt.hdr.seqNum) (swap32 pkt.hdr.length),
            read dev.configByte (swap64 pkt.hdr.address).toNat (swap32 pkt.hdr.length).toNat⟩] } := by
  unfold vpciHandleConfigRead vpciSendData vpciPacketSend
  simp only [if_neg (config_inside h), halloc.1, halloc.2.1, hconnected, if_true, readMem_config]

/-- A CONFIG_WRITE inside the config space stores its payload and is acknowledged. -/
theorem vpciHandleConfigWrite_inside (hconnected : dev.connected = true) (halloc : c.Allocates)
    (hdata : pkt.data.length = (swap32 pkt.hdr.length).toNat)
    (h : (swap64 pkt.hdr.address).toNat + (swap32 pkt.hdr.length).toNat ≤ dev.configSize.toNat) :
    vpciHandleConfigWrite dev c pkt =
      { dev with
        mem := writeMem dev.mem (dev.configSpace + swap64 pkt.hdr.address) pkt.data
        payloadReads := (swap32 pkt.hdr.length).toNat :: dev.payloadReads
        txList := dev.txList ++
          [⟨answerHdr dev vpciMsgAck (swap32 pkt.hdr.seqNum) 4, intBytes 0⟩] } := by
  have hpayload : pkt.payload c.stray (swap32 pkt.hdr.length).toNat = pkt.data := by
    rw [pkt.payload_of_le hdata.ge, List.take_of_length_le hdata.le]
  unfold vpciHandleConfigWrite vpciSendAck vpciSendStatus vpciPacketSend
  simp only [if_neg (config_inside h), hpayload, halloc.2.2.1, halloc.2.2.2, hconnected,
    Bool.and_self, if_true, answerHdr]

/-- A well-formed CONFIG_READ reaches its handler. -/
theorem vpciPacketProcess_configRead (dev : VpciDevice) (c : PktChoice)
    (hmagic : swap32 pkt.hdr.magic = vpciMagic)
    (htype : pkt.hdr.type = vpciMsgConfigRead) :
    vpciPacketProcess dev c pkt =
      vpciHandleConfigRead (dev.countRx (swap32 pkt.hdr.length)) c pkt := by
  unfold vpciPacketProcess
  simp only [ne_eq, hmagic, not_true_eq_false, if_false, htype, if_true]

/-- A well-formed CONFIG_WRITE reaches its handler. -/
theorem vpciPacketProcess_configWrite (dev : VpciDevice) (c : PktChoice)
    (hmagic : swap32 pkt.hdr.magic = vpciMagic)
    (htype : pkt.hdr.type = vpciMsgConfigWrite) :
    vpciPacketProcess dev c pkt =
      vpciHandleConfigWrite (dev.countRx (swap32 pkt.hdr.length)) c pkt := by
  have hread : vpciMsgConfigWrite ≠ vpciMsgConfigRead := by decide
  unfold vpciPacketProcess
  simp only [ne_eq, hmagic, not_true_eq_false, if_false, htype, if_neg hread, if_true]

end Packets

section Runs

variable {dev dev' : VpciDevice} {writes : List (Write UInt8)} {addr : UInt64}

/-- A read of the device inside the config space returns the most recent values. -/
theorem ConfigHolds.read (h : ConfigHolds writes dev) {len : UInt32}
    (hin : addr.toNat + len.toNat ≤ dev.configSize.toNat) :
    ByteStore.read dev.configByte addr.toNat len.toNat =
      ByteStore.read (lastWritten 0 writes) addr.toNat len.toNat :=
  read_congr fun i _ hi => h.bytes i (by omega)

/-- An access that keeps the memory and the link keeps what the device holds. -/
theorem ConfigHolds.of_frame (h : ConfigHolds writes dev) (hconnected : dev'.connected = dev.connected)
    (hspace : dev'.configSpace = dev.configSpace) (hsize : dev'.configSize = dev.configSize)
    (hmem : dev'.mem = dev.mem) : ConfigHolds writes dev' where
  connected := hconnected.trans h.connected
  bytes := by
    intro i hi
    have hbyte := h.bytes i (hsize ▸ hi)
    rwa [VpciDevice.configByte, hspace, hmem]

/-- A write inside the config space becomes the most recent one. -/
theorem ConfigHolds.write (h : ConfigHolds writes dev) {data : List UInt8}
    (hin : addr.toNat + data.length ≤ dev.configSize.toNat)
    (hconnected : dev'.connected = dev.connected) (hspace : dev'.configSpace = dev.configSpace)
    (hsize : dev'.configSize = dev.configSize)
    (hmem : dev'.mem = writeMem dev.mem (dev.configSpace + addr) data) :
    ConfigHolds (⟨addr.toNat, data⟩ :: writes) dev' where
  connected := hconnected.trans h.connected
  bytes := by
    intro i hi
    rw [hsize] at hi
    rw [VpciDevice.configByte, hspace, hmem, writeMem_config hin hi, lastWritten_cons, h.bytes i hi]

/-- One access inside the config space is faithful to the writes before it and adds its own. -/
theorem configAccess_faithful (h : ConfigHolds writes dev) {access : ConfigAccess}
    (hwf : access.WellFormed) (hin : access.Inside dev) :
    ConfigAccessFaithful writes dev access (configAccess dev access) ∧
      ConfigHolds (access.written.toList ++ writes) (configAccess dev access) := by
  cases access with
  | packet c pkt =>
    obtain ⟨hmagic, htype, hdata, halloc⟩ := hwf
    have hcount : ConfigHolds writes (dev.countRx (swap32 pkt.hdr.length)) :=
      h.of_frame rfl rfl rfl rfl
    rcases htype with htype | htype
    · have hprocess := (vpciPacketProcess_configRead dev c hmagic htype).trans
        (vpciHandleConfigRead_inside hcount.connected halloc hin)
      have hwritten : (ConfigAccess.packet c pkt).written = none := by
        simp [ConfigAccess.written, htype, vpciMsgConfigRead, vpciMsgConfigWrite]
      refine ⟨⟨fun _ => ?_, fun p _ => ?_⟩, ?_⟩
      · have hbytes := hcount.read hin
        simpa [configAnswer, hprocess, VpciDevice.countRx, answerHdr, ConfigAccess.interval] using hbytes
      · rw [configAccess, hprocess]
        rfl
      · rw [hwritten, configAccess, hprocess]
        exact hcount.of_frame rfl rfl rfl rfl
    · have hprocess := (vpciPacketProcess_configWrite dev c hmagic htype).trans
        (vpciHandleConfigWrite_inside hcount.connected halloc hdata hin)
      have hwritten : (ConfigAccess.packet c pkt).written =
          some ⟨(swap64 pkt.hdr.address).toNat, pkt.data⟩ := if_pos htype
      have hinside : (swap64 pkt.hdr.address).toNat + pkt.data.length ≤ dev.configSize.toNat :=
        hdata ▸ hin
      refine ⟨⟨fun hread => ?_, fun p hp => ?_⟩, ?_⟩
      · exact absurd (htype.symm.trans hread) (by decide)
      · rw [configAccess, hprocess]
        exact writeMem_frame _ (hp _ hwritten)
      · rw [hwritten, configAccess, hprocess]
        exact hcount.write hinside rfl rfl rfl rfl
  | read addr len =>
    have hinside : addr.toNat + len.toNat ≤ dev.configSize.toNat := hin
    have hread : vpciConfigRead dev addr len = .ok _ := if_neg (config_inside hinside)
    refine ⟨⟨fun _ => ?_, fun p _ => rfl⟩, h⟩
    rw [configAnswer, hread, readMem_config, h.read hinside]
    rfl
  | write addr data len =>
    have hin : addr.toNat + len.toNat ≤ dev.configSize.toNat := hin
    have hdata : data.length = len.toNat := hwf
    have hinside : addr.toNat + data.length ≤ dev.configSize.toNat := hdata ▸ hin
    have hwrite : configAccess dev (.write addr data len) =
        { dev with mem := writeMem dev.mem (dev.configSpace + addr) data } := by
      rw [configAccess, vpciConfigWrite, if_neg (config_inside hin)]
      rfl
    rw [hwrite]
    exact ⟨⟨False.elim, fun p hp => writeMem_frame _ (hp _ rfl)⟩, h.write hinside rfl rfl rfl rfl⟩

/-- After a run the device holds the values of the run's writes. -/
theorem configHolds_run (hdev : ConfigFresh dev) {accesses : List ConfigAccess}
    (hrun : configMachine.run dev accesses = some dev') : ConfigHolds (configWrites accesses) dev' := by
  induction accesses using List.reverseRecOn generalizing dev' with
  | nil =>
    obtain rfl := Option.some.inj hrun
    exact ⟨hdev.connected, fun i hi => by rw [hdev.zeroed i hi]; rfl⟩
  | append_singleton front access ih =>
    rw [Machine.run_append] at hrun
    obtain ⟨s, hs, hstep⟩ := Option.bind_eq_some_iff.mp hrun
    obtain ⟨t, ht, htt⟩ := Option.bind_eq_some_iff.mp hstep
    obtain rfl := Option.some.inj htt
    simp only [configMachine] at ht
    split_ifs at ht with hok
    obtain rfl := Option.some.inj ht
    have hnext := (configAccess_faithful (ih hs) hok.1 hok.2).2
    have hwrites : configWrites (front ++ [access]) = access.written.toList ++ configWrites front := by
      unfold configWrites
      rw [List.reverse_append, List.reverse_singleton, List.singleton_append, List.filterMap_cons]
      cases access.written <;> rfl
    rwa [hwrites]

/-- In every run of accesses inside the config space of a new device, over either path and in any
order, each access is faithful to the writes before it. -/
theorem configSpace_byteArray (hdev : ConfigFresh dev) {front : List ConfigAccess}
    {access : ConfigAccess} {s t : VpciDevice} (hrun : configMachine.run dev front = some s)
    (hstep : configMachine.step s access = some t) :
    ConfigAccessFaithful (configWrites front) s access t := by
  simp only [configMachine] at hstep
  split_ifs at hstep with hok
  obtain rfl := Option.some.inj hstep
  exact (configAccess_faithful (configHolds_run hdev hrun) hok.1 hok.2).1

end Runs

/-- A CONFIG_WRITE packet of two bytes at offset 16, overlapped by a direct write at offset 17, and a
direct read of both. -/
theorem configSpace_byteArray_overlap :
    ConfigAccessFaithful [⟨17, [0x33]⟩, ⟨16, [0x11, 0x22]⟩]
      (configAccess (configAccess vpciConnected (.packet ⟨true, true, true, true, fun _ => 0⟩
        ⟨⟨swap32 vpciMagic, swap16 vpciVersion, vpciMsgConfigWrite, 0, 0, 0, swap32 2, swap64 16⟩,
          [0x11, 0x22]⟩)) (.write 17 [0x33] 1)) (.read 16 2)
      (configAccess (configAccess vpciConnected (.packet ⟨true, true, true, true, fun _ => 0⟩
        ⟨⟨swap32 vpciMagic, swap16 vpciVersion, vpciMsgConfigWrite, 0, 0, 0, swap32 2, swap64 16⟩,
          [0x11, 0x22]⟩)) (.write 17 [0x33] 1)) :=
  @configSpace_byteArray vpciConnected ⟨rfl, fun _ _ => rfl⟩
    [.packet ⟨true, true, true, true, fun _ => 0⟩
      ⟨⟨swap32 vpciMagic, swap16 vpciVersion, vpciMsgConfigWrite, 0, 0, 0, swap32 2, swap64 16⟩,
        [0x11, 0x22]⟩, .write 17 [0x33] 1] _ _ _ rfl rfl

end LinuxFunctionTest.VirtualPcie
