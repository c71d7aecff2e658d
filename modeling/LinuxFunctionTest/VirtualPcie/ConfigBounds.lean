import LinuxFunctionTest.VirtualPcie.ConfigSpace
import LinuxFunctionTest.Library.Window

/-!
# The range check of the config space

Four functions copy from or to the config space, and each checks the range of its copy by itself:
`addr + len > dev->config_size`, a sum of 64-bit words. Here each is told with the copies it makes
and what it returns; a packet handler returns nothing and reports an error in a NACK, if there is memory
for one and the device is connected. All four give the same verdict, and it is the right one unless the
sum wraps around.
-/

namespace LinuxFunctionTest.VirtualPcie

open Bytes Errno

/-- A copy from or to the config space: the pointer and the number of bytes. -/
structure ConfigCopy where
  ptr : UInt64
  len : ℕ
  deriving DecidableEq

/-- The copy reads or writes the byte at the pointer. -/
def ConfigCopy.Touches (copy : ConfigCopy) (p : UInt64) : Prop :=
  ∃ i < copy.len, p = copy.ptr + UInt64.ofNat i

/-- What a call leaves behind: the device, the copies it made and its result; the packet handlers have
none. -/
structure ConfigOutcome where
  dev : VpciDevice
  copies : List ConfigCopy
  ret : Option ℤ

/-- `vpci_handle_config_read`, with its copies. -/
def vpciHandleConfigReadCopies (dev : VpciDevice) (c : PktChoice) (pkt : VpciPacket) :
    ConfigOutcome :=
  let addr := swap64 pkt.hdr.address
  let len := swap32 pkt.hdr.length
  let seq := swap32 pkt.hdr.seqNum
  if addr + len.toUInt64 > dev.configSize then ⟨vpciSendNack dev c seq (-erange), [], none⟩
  else if c.readData then
    let copy : ConfigCopy := ⟨dev.configSpace + addr, len.toNat⟩
    ⟨vpciSendData dev c seq len (readMem dev.mem copy.ptr copy.len), [copy], none⟩
  else ⟨vpciSendNack dev c seq (-enomem), [], none⟩

/-- `vpci_handle_config_write`, with its copies. -/
def vpciHandleConfigWriteCopies (dev : VpciDevice) (c : PktChoice) (pkt : VpciPacket) :
    ConfigOutcome :=
  let addr := swap64 pkt.hdr.address
  let len := swap32 pkt.hdr.length
  let seq := swap32 pkt.hdr.seqNum
  if addr + len.toUInt64 > dev.configSize then ⟨vpciSendNack dev c seq (-erange), [], none⟩
  else
    let copy : ConfigCopy := ⟨dev.configSpace + addr, len.toNat⟩
    let dev := { dev with
      mem := writeMem dev.mem copy.ptr (pkt.payload c.stray copy.len)
      payloadReads := len.toNat :: dev.payloadReads }
    ⟨vpciSendAck dev c seq 0, [copy], none⟩

/-- `vpci_config_read`, with its copies. -/
def vpciConfigReadCopies (dev : VpciDevice) (addr : UInt64) (len : UInt32) : ConfigOutcome :=
  if addr + len.toUInt64 > dev.configSize then ⟨dev, [], some (-erange)⟩
  else ⟨dev, [⟨dev.configSpace + addr, len.toNat⟩], some 0⟩

/-- `vpci_config_write`, with its copies; `data` holds the first `len` bytes of the buffer. -/
def vpciConfigWriteCopies (dev : VpciDevice) (addr : UInt64) (data : List UInt8) (len : UInt32) :
    ConfigOutcome :=
  if addr + len.toUInt64 > dev.configSize then ⟨dev, [], some (-erange)⟩
  else
    let copy : ConfigCopy := ⟨dev.configSpace + addr, len.toNat⟩
    ⟨{ dev with mem := writeMem dev.mem copy.ptr data }, [copy], some 0⟩

section Connect

variable (dev : VpciDevice) (c : PktChoice) (pkt : VpciPacket)

/-- The device after a CONFIG_READ. -/
theorem vpciHandleConfigReadCopies_dev :
    (vpciHandleConfigReadCopies dev c pkt).dev = vpciHandleConfigRead dev c pkt := by
  simp only [vpciHandleConfigReadCopies, vpciHandleConfigRead]
  split_ifs <;> rfl

/-- The device after a CONFIG_WRITE. -/
theorem vpciHandleConfigWriteCopies_dev :
    (vpciHandleConfigWriteCopies dev c pkt).dev = vpciHandleConfigWrite dev c pkt := by
  simp only [vpciHandleConfigWriteCopies, vpciHandleConfigWrite]
  split_ifs <;> rfl

/-- The result of `vpci_config_read`, with the bytes of its copy when it is 0. -/
theorem vpciConfigRead_eq (addr : UInt64) (len : UInt32) :
    vpciConfigRead dev addr len =
      if (vpciConfigReadCopies dev addr len).ret = some 0 then
        .ok (readMem dev.mem (dev.configSpace + addr) len.toNat)
      else .error (-erange) := by
  unfold vpciConfigRead vpciConfigReadCopies
  by_cases h : addr + len.toUInt64 > dev.configSize
  · simp [h, erange]
  · simp [h]

/-- The result of `vpci_config_write`, with the device it leaves when it is 0. -/
theorem vpciConfigWrite_eq (addr : UInt64) (data : List UInt8) (len : UInt32) :
    vpciConfigWrite dev addr data len =
      if (vpciConfigWriteCopies dev addr data len).ret = some 0 then
        .ok (vpciConfigWriteCopies dev addr data len).dev
      else .error (-erange) := by
  unfold vpciConfigWrite vpciConfigWriteCopies
  by_cases h : addr + len.toUInt64 > dev.configSize
  · simp [h, erange]
  · simp [h]

end Connect

/-- The packet with another address and length in its header. -/
def VpciPacket.asking (pkt : VpciPacket) (addr : UInt64) (len : UInt32) : VpciPacket :=
  { pkt with hdr := { pkt.hdr with address := swap64 addr, length := swap32 len } }

/-- One of the four functions, with what it takes besides an address and a length. -/
inductive ConfigCall where
  | handleRead (c : PktChoice) (pkt : VpciPacket)
  | handleWrite (c : PktChoice) (pkt : VpciPacket)
  | read
  | write (buf : ℕ → UInt8)

namespace ConfigCall

/-- The outcome of the call for an address and a length. -/
def outcome (dev : VpciDevice) (addr : UInt64) (len : UInt32) : ConfigCall → ConfigOutcome
  | .handleRead c pkt => vpciHandleConfigReadCopies dev c (pkt.asking addr len)
  | .handleWrite c pkt => vpciHandleConfigWriteCopies dev c (pkt.asking addr len)
  | .read => vpciConfigReadCopies dev addr len
  | .write buf => vpciConfigWriteCopies dev addr ((List.range len.toNat).map buf) len

/-- The call allocates the buffer for the bytes it reads; only `vpci_handle_config_read` has one. -/
def Allocates : ConfigCall → Prop
  | .handleRead c _ => c.readData = true
  | _ => True

/-- The call can report an error: a packet handler gets the memory for a NACK and is connected, the
other two return it. -/
def CanReport (dev : VpciDevice) : ConfigCall → Prop
  | .handleRead c _ | .handleWrite c _ => c.pkt = true ∧ c.status = true ∧ dev.connected = true
  | _ => True

/-- The call reports an error: a packet handler adds a NACK with it to `tx_list`, the other two return
it. -/
def Reports (dev : VpciDevice) (out : ConfigOutcome) (e : ℤ) : ConfigCall → Prop
  | .handleRead _ pkt | .handleWrite _ pkt =>
    out.dev.txList = dev.txList ++ [⟨answerHdr dev vpciMsgNack (swap32 pkt.hdr.seqNum) 4, intBytes e⟩]
  | _ => out.ret = some e

end ConfigCall

/-- The config space as a window of offsets. -/
def VpciDevice.configWindow (dev : VpciDevice) : Window := ⟨0, dev.configSize.toNat⟩

/-- The interval decides in unbounded arithmetic: inside, the config space is accessed, and there
only at the offsets of the interval; outside, it is left alone and the call reports `-ERANGE`. -/
structure ConfigBounded (dev : VpciDevice) (addr : UInt64) (len : UInt32) (call : ConfigCall)
    (out : ConfigOutcome) : Prop where
  accesses : out.copies ≠ [] ↔ addr.toNat + len.toNat ≤ dev.configSize.toNat
  offsets : ∀ copy ∈ out.copies, ∀ p, copy.Touches p → ∃ i, addr.toNat ≤ i ∧
    i < addr.toNat + len.toNat ∧ i < dev.configSize.toNat ∧ p = dev.configSpace + UInt64.ofNat i
  frame : ∀ p, out.dev.mem p ≠ dev.mem p → ∃ copy ∈ out.copies, copy.Touches p
  rejected : ¬ addr.toNat + len.toNat ≤ dev.configSize.toNat →
    out.copies = [] ∧ out.dev.mem = dev.mem ∧ call.Reports dev out (-erange)

section Bounds

variable {dev : VpciDevice} {addr : UInt64} {len : UInt32}

/-- The check that the four functions share lets the intervals inside the config space pass and those
that wrap around into it. -/
theorem config_passes_iff :
    ¬ addr + len.toUInt64 > dev.configSize ↔
      dev.configWindow.Contains addr.toNat len.toNat ∨
        dev.configWindow.WrapsInto addr.toNat len.toNat := by
  have hend : (0 : UInt64).toNat + dev.configSize.toNat < 2 ^ 64 := by
    simpa using dev.configSize.toNat_lt
  have hwords : 0 ≤ addr ∧ addr + len.toUInt64 ≤ 0 + dev.configSize ↔ _ := Window.words_iff hend
  simpa [VpciDevice.configWindow] using hwords

/-- What an ACK or a NACK adds to `tx_list`: one packet with its status, if it can be sent. -/
theorem vpciSendStatus_txList (type : UInt8) (dev : VpciDevice) (c : PktChoice) (seqNum : UInt32) (status : ℤ) :
    (vpciSendStatus type dev c seqNum status).txList = dev.txList ++
      if c.pkt = true ∧ c.status = true ∧ dev.connected = true then
        [⟨answerHdr dev type seqNum 4, intBytes status⟩]
      else [] := by
  unfold vpciSendStatus vpciPacketSend
  cases c.pkt <;> cases c.status <;> cases dev.connected <;> simp

/-- A packet that is not this NACK does not report its error. -/
theorem not_reports_of_ne {txList added : List VpciPacket} {nack : VpciPacket}
    (h : ∀ pkt ∈ added, pkt ≠ nack) : txList ++ added ≠ txList ++ [nack] := by
  intro heq
  obtain rfl := List.append_cancel_left heq
  exact h nack (List.mem_singleton_self _) rfl

/-- A NACK with another error does not report this one. -/
theorem vpciSendStatus_not_reports {type : UInt8} {dev' : VpciDevice} {c : PktChoice} {seqNum : UInt32}
    {status : ℤ} {hdr : VpciPktHeader} (hlist : dev'.txList = dev.txList)
    (hne : intBytes status ≠ intBytes (-erange)) :
    (vpciSendStatus type dev' c seqNum status).txList ≠ dev.txList ++ [⟨hdr, intBytes (-erange)⟩] := by
  rw [vpciSendStatus_txList, hlist]
  refine not_reports_of_ne fun pkt hpkt heq => ?_
  split_ifs at hpkt
  · rw [List.mem_singleton.mp hpkt] at heq
    exact hne (congrArg VpciPacket.data heq)
  · cases hpkt

/-- The answer to a read does not report `-ERANGE`. -/
theorem vpciSendData_not_reports {c : PktChoice} {seqNum seqNum' : UInt32} (data : List UInt8) :
    (vpciSendData dev c seqNum len data).txList ≠
      dev.txList ++ [⟨answerHdr dev vpciMsgNack seqNum' 4, intBytes (-erange)⟩] := by
  unfold vpciSendData
  split_ifs
  · -- An ACK is no NACK.
    unfold vpciPacketSend
    split_ifs
    · refine not_reports_of_ne fun pkt hpkt heq => ?_
      rw [List.mem_singleton.mp hpkt] at heq
      exact absurd (congrArg (fun pkt => pkt.hdr.type) heq) (by decide : vpciMsgAck ≠ vpciMsgNack)
    · intro heq
      simp at heq
  · exact vpciSendStatus_not_reports rfl (by decide)

/-- A call that fails the check makes no copy, and reports `-ERANGE` if it can. -/
theorem ConfigCall.outcome_of_range (call : ConfigCall) (h : addr + len.toUInt64 > dev.configSize) :
    (call.outcome dev addr len).copies = [] ∧
      (call.outcome dev addr len).dev.mem = dev.mem ∧
      (call.Reports dev (call.outcome dev addr len) (-erange) ↔ call.CanReport dev) := by
  have hnack : ∀ (c : PktChoice) (seqNum : UInt32),
      (vpciSendNack dev c seqNum (-erange)).txList =
          dev.txList ++ [⟨answerHdr dev vpciMsgNack seqNum 4, intBytes (-erange)⟩] ↔
        c.pkt = true ∧ c.status = true ∧ dev.connected = true := fun c seqNum => by
    rw [vpciSendNack, vpciSendStatus_txList, List.append_cancel_left_eq]
    split_ifs with hsent
    · exact iff_of_true rfl hsent
    · exact iff_of_false (by simp) hsent
  cases call with
  | handleRead c pkt =>
    have hout : outcome dev addr len (.handleRead c pkt) =
        ⟨vpciSendNack dev c (swap32 pkt.hdr.seqNum) (-erange), [], none⟩ := by
      simp [outcome, vpciHandleConfigReadCopies, VpciPacket.asking, h]
    rw [hout]
    exact ⟨rfl, vpciSendStatus_mem _ _ _ _ _, hnack c _⟩
  | handleWrite c pkt =>
    have hout : outcome dev addr len (.handleWrite c pkt) =
        ⟨vpciSendNack dev c (swap32 pkt.hdr.seqNum) (-erange), [], none⟩ := by
      simp [outcome, vpciHandleConfigWriteCopies, VpciPacket.asking, h]
    rw [hout]
    exact ⟨rfl, vpciSendStatus_mem _ _ _ _ _, hnack c _⟩
  | read => simp [outcome, vpciConfigReadCopies, h, Reports, CanReport]
  | write buf => simp [outcome, vpciConfigWriteCopies, h, Reports, CanReport]

/-- A call that passes the check copies its interval, unless the buffer for it is missing, changes
no byte but those of the copy, and does not report `-ERANGE`. -/
theorem ConfigCall.outcome_of_passes (call : ConfigCall)
    (h : ¬ addr + len.toUInt64 > dev.configSize) :
    ((call.outcome dev addr len).copies = [⟨dev.configSpace + addr, len.toNat⟩] ∧ call.Allocates ∨
      (call.outcome dev addr len).copies = [] ∧ ¬ call.Allocates) ∧
      (∀ p, (call.outcome dev addr len).dev.mem p ≠ dev.mem p →
        ∃ copy ∈ (call.outcome dev addr len).copies, copy.Touches p) ∧
      ¬ call.Reports dev (call.outcome dev addr len) (-erange) := by
  have hzero : (0 : ℤ) ≠ -erange := by decide
  cases call with
  | handleRead c pkt =>
    cases hdata : c.readData with
    | true =>
      have hout : outcome dev addr len (.handleRead c pkt) =
          ⟨vpciSendData dev c (swap32 pkt.hdr.seqNum) len
            (readMem dev.mem (dev.configSpace + addr) len.toNat),
            [⟨dev.configSpace + addr, len.toNat⟩], none⟩ := by
        simp [outcome, vpciHandleConfigReadCopies, VpciPacket.asking, h, hdata]
      rw [hout]
      refine ⟨.inl ⟨rfl, hdata⟩, fun p hp => absurd ?_ hp, vpciSendData_not_reports _⟩
      exact congrFun (vpciSendData_mem _ _ _ _ _) p
    | false =>
      have hout : outcome dev addr len (.handleRead c pkt) =
          ⟨vpciSendNack dev c (swap32 pkt.hdr.seqNum) (-enomem), [], none⟩ := by
        simp [outcome, vpciHandleConfigReadCopies, VpciPacket.asking, h, hdata]
      rw [hout]
      refine ⟨.inr ⟨rfl, by simp [Allocates, hdata]⟩, fun p hp => absurd ?_ hp,
        vpciSendStatus_not_reports rfl (by decide)⟩
      exact congrFun (vpciSendStatus_mem _ _ _ _ _) p
  | handleWrite c pkt =>
    refine ⟨.inl ⟨?_, trivial⟩, fun p hp => ?_, ?_⟩
    · simp [outcome, vpciHandleConfigWriteCopies, VpciPacket.asking, h]
    · simp only [outcome, vpciHandleConfigWriteCopies, VpciPacket.asking, swap64_swap64,
        swap32_swap32, h, if_false, vpciSendAck, vpciSendStatus_mem] at hp ⊢
      obtain ⟨i, hi, hpi⟩ := writeMem_touches hp
      exact ⟨_, List.mem_singleton_self _, i, by simpa using hi, hpi⟩
    · simp only [Reports, outcome, vpciHandleConfigWriteCopies, VpciPacket.asking, swap64_swap64,
        swap32_swap32, h, if_false]
      exact vpciSendStatus_not_reports rfl (by decide)
  | read =>
    refine ⟨.inl ⟨?_, trivial⟩, fun p hp => absurd ?_ hp, ?_⟩ <;>
      simp [outcome, vpciConfigReadCopies, h, Reports, hzero]
  | write buf =>
    refine ⟨.inl ⟨?_, trivial⟩, fun p hp => ?_, ?_⟩
    · simp [outcome, vpciConfigWriteCopies, h]
    · simp only [outcome, vpciConfigWriteCopies, h, if_false] at hp ⊢
      obtain ⟨i, hi, hpi⟩ := writeMem_touches hp
      exact ⟨_, List.mem_singleton_self _, i, by simpa using hi, hpi⟩
    · simp [outcome, vpciConfigWriteCopies, h, Reports, hzero]

/-- The verdict of a call is that of the check, so all four functions give the same one. -/
theorem ConfigCall.reports_iff (call : ConfigCall) :
    call.Reports dev (call.outcome dev addr len) (-erange) ↔
      addr + len.toUInt64 > dev.configSize ∧ call.CanReport dev := by
  by_cases hrange : addr + len.toUInt64 > dev.configSize
  · rw [(call.outcome_of_range hrange).2.2, and_iff_right hrange]
  · exact iff_of_false (call.outcome_of_passes hrange).2.2 fun h => hrange h.1

/-- A copy inside the config space touches the offsets of its interval. -/
theorem ConfigCopy.touches_offset {copy : ConfigCopy} {p : UInt64}
    (hcopy : copy = ⟨dev.configSpace + addr, len.toNat⟩)
    (hin : addr.toNat + len.toNat ≤ dev.configSize.toNat) (h : copy.Touches p) :
    ∃ i, addr.toNat ≤ i ∧ i < addr.toNat + len.toNat ∧ i < dev.configSize.toNat ∧
      p = dev.configSpace + UInt64.ofNat i := by
  subst hcopy
  obtain ⟨i, hi, rfl⟩ := h
  refine ⟨addr.toNat + i, by omega, by simpa using hi, by simp at hi; omega, ?_⟩
  rw [UInt64.ofNat_add, UInt64.ofNat_toNat, UInt64.add_assoc]

/-- A call is right about its range exactly when the sum of the check does not wrap around into the
config space, `vpci_handle_config_read` gets its buffer where there is something to read, and a packet
handler can send its NACK where there is something to report. -/
theorem ConfigCall.bounded_iff (call : ConfigCall) :
    ConfigBounded dev addr len call (call.outcome dev addr len) ↔
      ¬ dev.configWindow.WrapsInto addr.toNat len.toNat ∧
        (dev.configWindow.Contains addr.toNat len.toNat → call.Allocates) ∧
        (¬ dev.configWindow.Contains addr.toNat len.toNat → call.CanReport dev) := by
  have hcontains : dev.configWindow.Contains addr.toNat len.toNat ↔
      addr.toNat + len.toNat ≤ dev.configSize.toNat := by
    simp [VpciDevice.configWindow, Window.Contains]
  have hend : dev.configWindow.start + dev.configWindow.size < 2 ^ 64 := by
    simpa [VpciDevice.configWindow] using dev.configSize.toNat_lt
  have hpasses : ¬ addr + len.toUInt64 > dev.configSize ↔ _ := config_passes_iff
  constructor
  · intro h
    have hreports : ∀ hout : ¬ dev.configWindow.Contains addr.toNat len.toNat,
        addr + len.toUInt64 > dev.configSize ∧ call.CanReport dev := fun hout =>
      call.reports_iff.mp (h.rejected (hcontains.not.mp hout)).2.2
    refine ⟨fun hwraps => ?_, fun hin => ?_, fun hout => (hreports hout).2⟩
    · have hout := Window.not_contains_of_wrapsInto hend hwraps
      exact hpasses.mpr (.inr hwraps) (hreports hout).1
    · obtain ⟨⟨-, halloc⟩ | ⟨hnone, -⟩, -⟩ := call.outcome_of_passes (hpasses.mpr (.inl hin))
      · exact halloc
      · exact absurd hnone (h.accesses.mpr (hcontains.mp hin))
  · rintro ⟨hnowrap, halloc, hreport⟩
    by_cases hin : dev.configWindow.Contains addr.toNat len.toNat
    · obtain ⟨⟨hcopy, -⟩ | ⟨-, hmissing⟩, hframe, -⟩ :=
        call.outcome_of_passes (hpasses.mpr (.inl hin))
      · refine ⟨by simp [hcopy, hcontains.mp hin], fun copy hmem p hp => ?_, hframe,
          fun hout => absurd (hcontains.mp hin) hout⟩
        rw [hcopy, List.mem_singleton] at hmem
        exact ConfigCopy.touches_offset hmem (hcontains.mp hin) hp
      · exact absurd (halloc hin) hmissing
    · have hrange : addr + len.toUInt64 > dev.configSize := by
        by_contra hno
        exact (hpasses.mp hno).elim hin hnowrap
      obtain ⟨hnone, hmem, hreports⟩ := call.outcome_of_range hrange
      refine ⟨by simp [hnone, hcontains.not.mp hin], fun copy hcopy => ?_, fun p hp => ?_,
        fun _ => ⟨hnone, hmem, hreports.mpr (hreport hin)⟩⟩
      · rw [hnone] at hcopy
        exact absurd hcopy List.not_mem_nil
      · exact absurd (congrFun hmem p) hp

/-- Each of the four functions is right about an interval exactly when the sum of its check does not wrap
around into the config space, no buffer is missing and a NACK can be sent; and those that can report an
error all give the same verdict. -/
theorem vpciConfig_bounded_iff (dev : VpciDevice) (addr : UInt64) (len : UInt32) (call : ConfigCall) :
    (ConfigBounded dev addr len call (call.outcome dev addr len) ∧
      ∀ other : ConfigCall, other.CanReport dev →
        (other.Reports dev (other.outcome dev addr len) (-erange) ↔
          call.Reports dev (call.outcome dev addr len) (-erange))) ↔
      ¬ dev.configWindow.WrapsInto addr.toNat len.toNat ∧
        (dev.configWindow.Contains addr.toNat len.toNat → call.Allocates) ∧
        (¬ dev.configWindow.Contains addr.toNat len.toNat → call.CanReport dev) := by
  rw [call.bounded_iff, and_iff_left_iff_imp]
  rintro ⟨hnowrap, -, hreport⟩ other hother
  rw [call.reports_iff, other.reports_iff, and_iff_left hother]
  refine ⟨fun hrange => ⟨hrange, hreport fun hin => ?_⟩, fun h => h.1⟩
  exact config_passes_iff.mpr (.inl hin) hrange

end Bounds

/-- One byte written at the last address passes the check and lands in front of the config space. -/
theorem vpciConfigWrite_wraps :
    ¬ ConfigBounded vpciConnected 0xffffffffffffffff 1 (.write fun _ => 0xaa)
        ((ConfigCall.write fun _ => 0xaa).outcome vpciConnected 0xffffffffffffffff 1) ∧
      ((ConfigCall.write fun _ => 0xaa).outcome vpciConnected 0xffffffffffffffff 1).dev.mem 0xffff =
        0xaa := by
  refine ⟨fun h => ?_, by decide⟩
  obtain ⟨hnone, -, -⟩ := h.rejected (by decide)
  exact absurd hnone (by decide)

end LinuxFunctionTest.VirtualPcie
