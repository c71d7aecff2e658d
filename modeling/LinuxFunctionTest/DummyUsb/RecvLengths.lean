import LinuxFunctionTest.DummyUsb.PollLoop

/-!
# Lengths from the wire

`uoe_recv_packet` puts the 32-bit length of a header into an `int`, compares it with the largest
payload and adds it to the size of a header, in 64 bits. Here its calls may fail: the two receive
calls, and the allocation. The lengths that go wrong are the last eight before 2^32, for which the
sum is smaller than a header, and the first of them faults; a length up to the largest payload makes the
call wait for another datagram, whether one comes or not; and the loop copies a SETUP request of eight
bytes out of a packet whatever its length.
-/

namespace LinuxFunctionTest.DummyUsb

open Bytes Errno

/-- What `kernel_recvmsg` returns when it fails. -/
abbrev RecvError := {err : ℤ // err < 0}

/-- The sizes that `kzalloc` can provide; none is half of the address space. -/
structure Allocator where
  provides : ℕ → Bool
  bounded : ∀ size, provides size = true → size < 2 ^ 63

/-- The environment of one call of `uoe_recv_packet`: whether there is a data socket and a pointer to
put the packet, how the two receive calls fail, and what can be allocated. -/
structure RecvEnv where
  sockData : Bool
  pkt : Bool
  headerErr : Option RecvError
  dataErr : Option RecvError
  kzalloc : Allocator

/-- `uoe_recv_packet` in an environment, with all the datagrams that come; without a packet `*pkt` is left
untouched. A call that gets no datagram waits and does not return, nor does one that faults. -/
def uoeRecvPacketIn (env : RecvEnv) (queue : List Datagram) :
    Option ((ℤ × Option UoePacket) × List Datagram) :=
  if !env.sockData || !env.pkt then some ((-einval, none), queue)
  else match env.headerErr with
  | some err => some ((err, none), queue)
  | none => do
    let (d, queue) ← kernelRecvmsg queue uoeHeaderSize uoeHeaderSize
    if d.bytes.length < uoeHeaderSize then return ((-emsgsize, none), queue)
    let hdr := UoeHeader.ofBytes d.bytes
    let dataLen := hdr.dataLen
    if dataLen > uoeMaxPayload then return ((-emsgsize, none), queue)
    let allocated := uoeAllocated dataLen
    let zeroed := List.replicate dataLen.toNat (0 : UInt8)
    -- `kzalloc(0)` is `ZERO_SIZE_PTR`: not null, and the header cannot be written there.
    if allocated = 0 then none
    else if !env.kzalloc.provides allocated then return ((-enomem, none), queue)
    else if dataLen > 0 then
      match env.dataErr with
      | some err => return ((err, none), queue)
      | none =>
        let (e, queue) ← kernelRecvmsg queue (uoeHeaderSize + dataLen.toNat) dataLen.toNat
        let received := e.bytes.drop uoeHeaderSize
        let packet := ⟨hdr, received ++ zeroed.drop received.length, allocated, e.src⟩
        return ((uoeHeaderSize + dataLen, some packet), queue)
    else
      return ((uoeHeaderSize + dataLen, some ⟨hdr, zeroed, allocated, d.src⟩), queue)

/-- The length field of the header that a datagram starts with. -/
def Datagram.lengthField (d : Datagram) : ℕ := (swap32 d.hdr.length).toNat

/-- The size that is allocated for the header of a datagram. -/
def Datagram.allocated (d : Datagram) : ℕ := uoeAllocated d.hdr.dataLen

/-- The call gets a whole header out of the datagram. -/
def HeaderTaken (env : RecvEnv) (d : Datagram) : Prop :=
  env.sockData = true ∧ env.pkt = true ∧ env.headerErr = none ∧ d.Headed

/-- The call does not fail at the data, and if there is any, it comes. -/
def DataTaken (env : RecvEnv) (d : Datagram) (queue : List Datagram) : Prop :=
  0 < d.lengthField → env.dataErr = none ∧ queue ≠ []

/-- The bytes that the buffer of a packet has behind its header. -/
def UoePacket.payloadSize (p : UoePacket) : ℕ := p.allocated - uoeHeaderSize

/-- The packet out of which a pass of `uoe_udc_poll_loop` copies a SETUP request. -/
def setupSource (env : RecvEnv) (queue : List Datagram) : Option UoePacket :=
  match uoeRecvPacketIn env queue with
  | some ((ret, some pkt), _) =>
    if ret < 0 then none
    else if pkt.hdr.IsPoll then none
    else if pkt.hdr.type = uoeSetup then some pkt
    else none
  | _ => none

section Recv

variable {env : RecvEnv} {d : Datagram} {queue : List Datagram}

/-- Where nothing fails, this is the call of the loop. -/
theorem uoeRecvPacketIn_eq (henv : env.sockData = true ∧ env.pkt = true ∧ env.headerErr = none ∧
    env.dataErr = none) (hkzalloc : env.kzalloc.provides d.allocated = true) :
    uoeRecvPacketIn env (d :: queue) = uoeRecvPacket (d :: queue) := by
  obtain ⟨hsock, hpkt, hheader, hdata⟩ := henv
  have hbound := not_le.mpr (env.kzalloc.bounded _ hkzalloc)
  simp only [Datagram.allocated, Datagram.hdr, UoeHeader.dataLen] at hkzalloc hbound
  simp [uoeRecvPacketIn, uoeRecvPacket, hsock, hpkt, hheader, hdata, kernelRecvmsg,
    UoeHeader.dataLen, hkzalloc, hbound, -Nat.reducePow]

/-- A call that does not get the header fails. -/
theorem uoeRecvPacketIn_untaken (h : ¬ HeaderTaken env d) :
    ∃ ret rest, uoeRecvPacketIn env (d :: queue) = some ((ret, none), rest) ∧ ret < 0 := by
  unfold uoeRecvPacketIn
  split_ifs with hargs
  · exact ⟨_, _, rfl, by decide⟩
  cases hheader : env.headerErr with
  | some err => exact ⟨_, _, rfl, err.2⟩
  | none =>
    have hshort : d.bytes.length < uoeHeaderSize := by
      by_contra hlong
      refine h ⟨?_, ?_, hheader, not_lt.mp hlong⟩ <;> simp_all
    refine ⟨-emsgsize, queue, ?_, by decide⟩
    simp [kernelRecvmsg, hshort]

/-- A call that gets a header whose length is too large fails. -/
theorem uoeRecvPacketIn_refused (htaken : HeaderTaken env d) (hmax : uoeMaxPayload < d.hdr.dataLen) :
    uoeRecvPacketIn env (d :: queue) = some ((-emsgsize, none), queue) := by
  obtain ⟨hsock, hpkt, hheader, hheaded⟩ := htaken
  have hlong : ¬ d.bytes.length < uoeHeaderSize := not_lt.mpr hheaded
  simp only [Datagram.hdr] at hmax
  simp [uoeRecvPacketIn, hsock, hpkt, hheader, kernelRecvmsg, hlong, hmax]

/-- A call for whose packet the size 0 is allocated faults. -/
theorem uoeRecvPacketIn_faults (htaken : HeaderTaken env d) (hmax : d.hdr.dataLen ≤ uoeMaxPayload)
    (hzero : d.allocated = 0) : uoeRecvPacketIn env (d :: queue) = none := by
  obtain ⟨hsock, hpkt, hheader, hheaded⟩ := htaken
  have hlong : ¬ d.bytes.length < uoeHeaderSize := not_lt.mpr hheaded
  simp only [Datagram.allocated, Datagram.hdr] at hzero hmax
  simp [uoeRecvPacketIn, hsock, hpkt, hheader, kernelRecvmsg, hlong, not_lt.mpr hmax, hzero]

/-- A call whose allocation fails returns `-ENOMEM`. -/
theorem uoeRecvPacketIn_noMem (htaken : HeaderTaken env d) (hmax : d.hdr.dataLen ≤ uoeMaxPayload)
    (hnonzero : d.allocated ≠ 0) (hkzalloc : env.kzalloc.provides d.allocated = false) :
    uoeRecvPacketIn env (d :: queue) = some ((-enomem, none), queue) := by
  obtain ⟨hsock, hpkt, hheader, hheaded⟩ := htaken
  have hlong : ¬ d.bytes.length < uoeHeaderSize := not_lt.mpr hheaded
  simp only [Datagram.allocated, Datagram.hdr] at hkzalloc hmax hnonzero
  simp [uoeRecvPacketIn, hsock, hpkt, hheader, kernelRecvmsg, hlong, not_lt.mpr hmax, hkzalloc, hnonzero]

/-- What the call does once it has its buffer: it fails at the data, waits for it, or returns the
packet. -/
theorem uoeRecvPacketIn_passes (htaken : HeaderTaken env d) (hmax : d.hdr.dataLen ≤ uoeMaxPayload)
    (hnonzero : d.allocated ≠ 0) (hkzalloc : env.kzalloc.provides d.allocated = true) :
    uoeRecvPacketIn env (d :: queue) =
      if 0 < d.hdr.dataLen then
        match env.dataErr with
        | some err => some (((err : ℤ), none), queue)
        | none => (kernelRecvmsg queue (uoeHeaderSize + d.hdr.dataLen.toNat)
          d.hdr.dataLen.toNat).map fun e => (((uoeHeaderSize : ℤ) + d.hdr.dataLen,
            some ⟨d.hdr, e.1.bytes.drop uoeHeaderSize ++
              (List.replicate d.hdr.dataLen.toNat 0).drop (e.1.bytes.drop uoeHeaderSize).length,
              d.allocated, e.1.src⟩), e.2)
      else some (((uoeHeaderSize : ℤ) + d.hdr.dataLen,
        some ⟨d.hdr, List.replicate d.hdr.dataLen.toNat 0, d.allocated, d.src⟩), queue) := by
  obtain ⟨hsock, hpkt, hheader, hheaded⟩ := htaken
  have hlong : ¬ d.bytes.length < uoeHeaderSize := not_lt.mpr hheaded
  have hhdr : UoeHeader.ofBytes (d.bytes.take uoeHeaderSize) = d.hdr := rfl
  have hallocated : uoeAllocated d.hdr.dataLen = d.allocated := rfl
  simp only [uoeRecvPacketIn, hsock, hpkt, Bool.not_true, Bool.or_self, Bool.false_eq_true, if_false,
    hheader, kernelRecvmsg, min_self, Option.bind_eq_bind, Option.bind_some, List.length_take,
    min_eq_left hheaded, lt_irrefl, gt_iff_lt, hhdr, not_lt.mpr hmax, hallocated, hnonzero, hkzalloc]
  split_ifs
  · cases env.dataErr with
    | some err => rfl
    | none => cases queue <;> rfl
  · rfl

/-- The call returns an error and leaves `*pkt` untouched. -/
def RecvFails (env : RecvEnv) (d : Datagram) (queue : List Datagram) : Prop :=
  ∃ ret rest, uoeRecvPacketIn env (d :: queue) = some ((ret, none), rest) ∧ ret < 0

/-- The call returns a packet with the header of the datagram, a result and a buffer of that size. -/
def RecvReturns (env : RecvEnv) (d : Datagram) (queue : List Datagram) (size : ℕ) : Prop :=
  ∃ p rest, uoeRecvPacketIn env (d :: queue) = some (((size : ℤ), some p), rest) ∧
    p.hdr = d.hdr ∧ p.allocated = size

/-- The length field is at most the largest payload: the sum is right. -/
theorem allocated_of_le (h : d.lengthField ≤ uoeMaxPayload) :
    d.hdr.dataLen = d.lengthField ∧ d.allocated = uoeHeaderSize + d.lengthField := by
  have hsize : uoeHeaderSize = 8 := rfl
  have hmax : uoeMaxPayload = 65536 := rfl
  have hlen : d.hdr.dataLen = d.lengthField := by
    unfold UoeHeader.dataLen toInt32 Datagram.lengthField at *
    rw [if_pos (by omega)]
  refine ⟨hlen, ?_⟩
  unfold Datagram.allocated uoeAllocated
  omega

/-- One of the last eight lengths: the sum is smaller than a header. -/
theorem allocated_of_wraps (h : 2 ^ 32 - 8 ≤ d.lengthField) :
    (uoeHeaderSize : ℤ) + d.hdr.dataLen = (uoeHeaderSize + d.lengthField - 2 ^ 32 : ℕ) ∧
      d.hdr.dataLen < 0 ∧ d.allocated = uoeHeaderSize + d.lengthField - 2 ^ 32 := by
  have hsize : uoeHeaderSize = 8 := rfl
  have hlt : d.lengthField < 2 ^ 32 := (swap32 d.hdr.length).toNat_lt
  have hlen : d.hdr.dataLen = (d.lengthField : ℤ) - 2 ^ 32 := by
    unfold UoeHeader.dataLen toInt32 Datagram.lengthField at *
    rw [if_neg (by omega)]
  unfold Datagram.allocated uoeAllocated
  omega

/-- The lengths in between are too large, or become so as a size. -/
theorem recvFails_of_between (hlarge : uoeMaxPayload < d.lengthField)
    (hsmall : d.lengthField < 2 ^ 32 - 8) (htaken : HeaderTaken env d) : RecvFails env d queue := by
  have hsize : uoeHeaderSize = 8 := rfl
  have hmax : uoeMaxPayload = 65536 := rfl
  by_cases hsign : d.lengthField < 2 ^ 31
  · have hlen : d.hdr.dataLen = d.lengthField := by
      unfold UoeHeader.dataLen toInt32 Datagram.lengthField at *
      rw [if_pos hsign]
    exact ⟨_, _, uoeRecvPacketIn_refused htaken (by omega), by decide⟩
  · have hlen : d.hdr.dataLen = (d.lengthField : ℤ) - 2 ^ 32 := by
      unfold UoeHeader.dataLen toInt32 Datagram.lengthField at *
      rw [if_neg hsign]
    have hhuge : 2 ^ 63 ≤ d.allocated := by
      unfold Datagram.allocated uoeAllocated
      omega
    have hnonzero : d.allocated ≠ 0 := by omega
    have hkzalloc : ¬ env.kzalloc.provides d.allocated = true := fun hprovides =>
      absurd (env.kzalloc.bounded _ hprovides) (not_lt.mpr hhuge)
    exact ⟨_, _, uoeRecvPacketIn_noMem htaken (by omega) hnonzero (Bool.eq_false_iff.mpr hkzalloc), by decide⟩

/-- A length up to the largest payload, with its buffer and its data: the packet is returned, in a
buffer of its size. -/
theorem recvReturns_of_dataTaken (htaken : HeaderTaken env d) (hmax : d.lengthField ≤ uoeMaxPayload)
    (hkzalloc : env.kzalloc.provides (uoeHeaderSize + d.lengthField) = true)
    (hdata : DataTaken env d queue) : RecvReturns env d queue (uoeHeaderSize + d.lengthField) := by
  obtain ⟨hlen, hallocated⟩ := allocated_of_le hmax
  have hsize : uoeHeaderSize = 8 := rfl
  have hpasses : uoeRecvPacketIn env (d :: queue) = _ :=
    uoeRecvPacketIn_passes htaken (hlen ▸ hmax) (by omega) (hallocated ▸ hkzalloc)
  have hret : (uoeHeaderSize : ℤ) + d.hdr.dataLen = (uoeHeaderSize + d.lengthField : ℕ) := by
    rw [hlen, Nat.cast_add]
  rw [hret] at hpasses
  by_cases hpos : 0 < d.lengthField
  · obtain ⟨hnone, hqueue⟩ := hdata hpos
    obtain ⟨e, rest, rfl⟩ := List.exists_cons_of_ne_nil hqueue
    rw [if_pos (by omega), hnone] at hpasses
    exact ⟨_, _, hpasses, rfl, hallocated⟩
  · rw [if_neg (by omega)] at hpasses
    exact ⟨_, _, hpasses, rfl, hallocated⟩

/-- A length up to the largest payload, when the data is not received: the call fails, or waits for ever. -/
theorem uoeRecvPacketIn_noData (htaken : HeaderTaken env d) (hmax : d.lengthField ≤ uoeMaxPayload)
    (hpos : 0 < d.lengthField) (hkzalloc : env.kzalloc.provides (uoeHeaderSize + d.lengthField) = true)
    (hnone : env.dataErr = none → queue = []) :
    uoeRecvPacketIn env (d :: queue) = env.dataErr.map fun err => (((err : ℤ), none), queue) := by
  obtain ⟨hlen, hallocated⟩ := allocated_of_le hmax
  have hsize : uoeHeaderSize = 8 := rfl
  have hpasses : uoeRecvPacketIn env (d :: queue) = _ :=
    uoeRecvPacketIn_passes htaken (hlen ▸ hmax) (by omega) (hallocated ▸ hkzalloc)
  rw [if_pos (by omega)] at hpasses
  cases herr : env.dataErr with
  | some err =>
    rw [herr] at hpasses
    exact hpasses
  | none =>
    rw [herr, hnone herr] at hpasses
    rw [hnone herr]
    exact hpasses

/-- One of the last seven lengths with its buffer: a packet is returned whose buffer has no room for
its header. -/
theorem recvReturns_of_wraps (htaken : HeaderTaken env d) (h : 2 ^ 32 - 8 < d.lengthField)
    (hkzalloc : env.kzalloc.provides (uoeHeaderSize + d.lengthField - 2 ^ 32) = true) :
    RecvReturns env d queue (uoeHeaderSize + d.lengthField - 2 ^ 32) := by
  obtain ⟨hret, hneg, hallocated⟩ := allocated_of_wraps h.le
  have hmax : uoeMaxPayload = 65536 := rfl
  have hsize : uoeHeaderSize = 8 := rfl
  have hpasses : uoeRecvPacketIn env (d :: queue) = _ :=
    uoeRecvPacketIn_passes htaken (by omega) (by omega) (hallocated ▸ hkzalloc)
  rw [if_neg (by omega), hret] at hpasses
  exact ⟨_, _, hpasses, rfl, hallocated⟩

/-- The loop copies the request out of this packet. -/
theorem handle_of_setupSource {p : UoePacket} (h : setupSource env queue = some p) (s : PollLoop)
    (src : SockAddr) (beyond : List UInt8) : s.handle p src beyond = s.setup p.data beyond := by
  unfold setupSource at h
  split at h
  · split_ifs at h with hneg hpoll hsetup
    obtain rfl := Option.some.inj h
    rw [PollLoop.handle, if_neg hpoll, if_pos hsetup]
  · cases h

/-- The loop looks behind the data of no other packet that it goes on with. -/
theorem handle_of_no_setupSource {p : UoePacket} {ret : ℤ} {rest : List Datagram}
    (hresult : uoeRecvPacketIn env queue = some ((ret, some p), rest)) (hret : 0 ≤ ret)
    (h : setupSource env queue = none) (s : PollLoop) (src : SockAddr) (left right : List UInt8) :
    s.handle p src left = s.handle p src right := by
  unfold setupSource at h
  simp only [hresult, if_neg (not_lt.mpr hret)] at h
  unfold PollLoop.handle
  split_ifs at h ⊢ <;> rfl

/-- The length of the header is handled safely: the call returns, and it has failed and left `*pkt`
untouched, or has returned the size of the packet with a buffer that has it. -/
def LengthSafe (env : RecvEnv) (d : Datagram) (queue : List Datagram) : Prop :=
  ∃ ret pkt rest, uoeRecvPacketIn env (d :: queue) = some ((ret, pkt), rest) ∧
    ((ret < 0 ∧ pkt = none) ∨ ∃ p, pkt = some p ∧ ret = (uoeHeaderSize + d.lengthField : ℕ) ∧
      uoeHeaderSize + d.lengthField ≤ p.allocated)

/-- A SETUP request is copied only out of a packet whose payload has its size. -/
def SetupSafe (env : RecvEnv) (d : Datagram) (queue : List Datagram) : Prop :=
  ∀ p, setupSource env (d :: queue) = some p → 8 ≤ p.payloadSize

/-- A call that fails is safe. -/
theorem safe_of_recvFails (h : RecvFails env d queue) : LengthSafe env d queue ∧ SetupSafe env d queue := by
  obtain ⟨ret, rest, hresult, hneg⟩ := h
  refine ⟨⟨ret, none, rest, hresult, .inl ⟨hneg, rfl⟩⟩, fun p hp => ?_⟩
  simp [setupSource, hresult] at hp

/-- A safe call returns. -/
theorem LengthSafe.returns (h : LengthSafe env d queue) : uoeRecvPacketIn env (d :: queue) ≠ none := by
  obtain ⟨ret, pkt, rest, hresult, -⟩ := h
  simp [hresult]

/-- A returned SETUP packet is what the request is copied out of. -/
theorem setupSource_of_returned {size : ℕ} (h : RecvReturns env d queue size) :
    ∃ p, p.allocated = size ∧
      setupSource env (d :: queue) = if d.hdr.type = uoeSetup then some p else none := by
  obtain ⟨p, rest, hresult, hhdr, hallocated⟩ := h
  refine ⟨p, hallocated, ?_⟩
  unfold setupSource
  simp only [hresult, hhdr, if_neg (not_lt.mpr (Int.natCast_nonneg size))]
  by_cases hsetup : d.hdr.type = uoeSetup
  · have hpoll : ¬ d.hdr.IsPoll := by
      rw [UoeHeader.IsPoll, hsetup]
      decide
    rw [if_neg hpoll]
  · rw [if_neg hsetup, ite_self]

/-- What goes wrong with the length of a header: it faults, it wraps around and there is a buffer for it, data
is to be received that does not come, or a SETUP packet is returned that is shorter than a request. -/
structure LengthMishandled (env : RecvEnv) (d : Datagram) (queue : List Datagram) : Prop where
  taken : HeaderTaken env d
  goesWrong : d.lengthField = 2 ^ 32 - 8 ∨
    (2 ^ 32 - 8 < d.lengthField ∧ env.kzalloc.provides (uoeHeaderSize + d.lengthField - 2 ^ 32) = true) ∨
    (d.lengthField ≤ uoeMaxPayload ∧ env.kzalloc.provides (uoeHeaderSize + d.lengthField) = true ∧
      (0 < d.lengthField ∧ env.dataErr = none ∧ queue = [] ∨
        d.hdr.type = uoeSetup ∧ d.lengthField < 8 ∧ DataTaken env d queue))

/-- What goes wrong is not safe. -/
theorem not_safe_of_mishandled (h : LengthMishandled env d queue) :
    ¬ (LengthSafe env d queue ∧ SetupSafe env d queue) := by
  rintro ⟨hlength, hsetup⟩
  have hmax : uoeMaxPayload = 65536 := rfl
  obtain hfaults | ⟨hwraps, hkzalloc⟩ | ⟨hle, hkzalloc, ⟨hpos, herr, hqueue⟩ | ⟨htype, hshort, hdata⟩⟩ :=
    h.goesWrong
  · obtain ⟨-, hneg, hallocated⟩ := allocated_of_wraps hfaults.ge
    have hsize : uoeHeaderSize = 8 := rfl
    exact hlength.returns (uoeRecvPacketIn_faults h.taken (by omega) (by omega))
  · have hreturns : RecvReturns env d queue _ := recvReturns_of_wraps h.taken hwraps hkzalloc
    obtain ⟨p, rest, hresult, -, -⟩ := hreturns
    obtain ⟨ret, pkt, rest', hsafe, hcases⟩ := hlength
    rw [hresult] at hsafe
    obtain ⟨hreply, rfl⟩ := Prod.mk.inj (Option.some.inj hsafe)
    obtain ⟨rfl, rfl⟩ := Prod.mk.inj hreply
    have hlt : d.lengthField < 2 ^ 32 := (swap32 d.hdr.length).toNat_lt
    obtain ⟨hneg, -⟩ | ⟨-, -, hret, -⟩ := hcases <;> omega
  · have hwaits := uoeRecvPacketIn_noData h.taken hle hpos hkzalloc fun _ => hqueue
    rw [herr] at hwaits
    exact hlength.returns hwaits
  · obtain ⟨p, hallocated, hsource⟩ :=
      setupSource_of_returned (recvReturns_of_dataTaken h.taken hle hkzalloc hdata)
    have hcopied := hsetup p (hsource.trans (if_pos htype))
    have hsize : uoeHeaderSize = 8 := rfl
    unfold UoePacket.payloadSize at hcopied
    omega

/-- A length up to the largest payload is safe when the data comes and a SETUP request has its size. -/
theorem safe_of_le (htaken : HeaderTaken env d) (hle : d.lengthField ≤ uoeMaxPayload)
    (h : ¬ LengthMishandled env d queue) : LengthSafe env d queue ∧ SetupSafe env d queue := by
  obtain ⟨hlen, hallocated⟩ := allocated_of_le hle
  have hsize : uoeHeaderSize = 8 := rfl
  cases hkzalloc : env.kzalloc.provides (uoeHeaderSize + d.lengthField) with
  | false =>
    exact safe_of_recvFails ⟨_, _, uoeRecvPacketIn_noMem htaken (hlen ▸ hle) (by omega)
      (hallocated ▸ hkzalloc), by decide⟩
  | true =>
    by_cases hdata : DataTaken env d queue
    · have hreturns := recvReturns_of_dataTaken htaken hle hkzalloc hdata
      constructor
      · obtain ⟨p, rest, hresult, -, hbuffer⟩ := hreturns
        exact ⟨_, _, _, hresult, .inr ⟨p, rfl, rfl, hbuffer.ge⟩⟩
      · obtain ⟨p, hbuffer, hsource⟩ := setupSource_of_returned hreturns
        intro q hq
        rw [hsource] at hq
        split_ifs at hq with htype
        obtain rfl := Option.some.inj hq
        have hlong : ¬ d.lengthField < 8 := fun hshort =>
          h ⟨htaken, .inr (.inr ⟨hle, hkzalloc, .inr ⟨htype, hshort, hdata⟩⟩)⟩
        unfold UoePacket.payloadSize
        omega
    · -- The data is not received, so the call has failed.
      have hpos : 0 < d.lengthField := by
        by_contra hzero
        exact hdata fun hpos => absurd hpos hzero
      have hnone : env.dataErr = none → queue = [] := fun herr => by
        by_contra hqueue
        exact hdata fun _ => ⟨herr, hqueue⟩
      have hresult := uoeRecvPacketIn_noData htaken hle hpos hkzalloc hnone
      cases herr : env.dataErr with
      | none => exact absurd ⟨htaken, .inr (.inr ⟨hle, hkzalloc, .inl ⟨hpos, herr, hnone herr⟩⟩)⟩ h
      | some err =>
        rw [herr] at hresult
        exact safe_of_recvFails ⟨_, _, hresult, err.2⟩

/-- Lengths are handled safely exactly when nothing goes wrong with the length of the header. -/
theorem recvLengths_safe_iff (env : RecvEnv) (d : Datagram) (queue : List Datagram) :
    (LengthSafe env d queue ∧ SetupSafe env d queue) ↔ ¬ LengthMishandled env d queue := by
  refine ⟨fun hsafe hmishandled => not_safe_of_mishandled hmishandled hsafe, fun h => ?_⟩
  have hmax : uoeMaxPayload = 65536 := rfl
  by_cases htaken : HeaderTaken env d
  case neg => exact safe_of_recvFails (uoeRecvPacketIn_untaken htaken)
  by_cases hle : (d.lengthField : ℤ) ≤ uoeMaxPayload
  · exact safe_of_le htaken hle h
  by_cases hthin : d.lengthField < 2 ^ 32 - 8
  · exact safe_of_recvFails (recvFails_of_between (by omega) hthin htaken)
  · have hwraps : 2 ^ 32 - 8 < d.lengthField :=
      lt_of_le_of_ne (not_lt.mp hthin) fun heq => h ⟨htaken, .inl heq.symm⟩
    obtain ⟨-, hneg, hallocated⟩ := allocated_of_wraps hwraps.le
    have hkzalloc : env.kzalloc.provides d.allocated = false :=
      Bool.eq_false_iff.mpr fun hprovides => h ⟨htaken, .inr (.inl ⟨hwraps, hallocated ▸ hprovides⟩)⟩
    have hsize : uoeHeaderSize = 8 := rfl
    exact safe_of_recvFails ⟨_, _, uoeRecvPacketIn_noMem htaken (by omega) (by omega) hkzalloc, by decide⟩

end Recv

/-- Everything succeeds, and allocations up to four megabytes. -/
def recvSucceeds : RecvEnv where
  sockData := true
  pkt := true
  headerErr := none
  dataErr := none
  kzalloc := ⟨fun size => size ≤ 2 ^ 22, fun size h => by
    have hle : size ≤ 2 ^ 22 := of_decide_eq_true h
    omega⟩

/-- A header with the length 2^32 - 1: the call returns 7 and a buffer of seven bytes. -/
theorem recvLengths_wrap :
    ¬ (LengthSafe recvSucceeds ⟨sockAddrZero, (uoeHdr uoeSetup 0 1 0xffffffff).bytes⟩ [] ∧
      SetupSafe recvSucceeds ⟨sockAddrZero, (uoeHdr uoeSetup 0 1 0xffffffff).bytes⟩ []) := by
  rintro ⟨⟨ret, pkt, rest, hresult, hcases⟩, -⟩
  obtain rfl : ret = 7 := (congrArg (fun out => out.1.1) (Option.some.inj hresult)).symm
  obtain ⟨hneg, -⟩ | ⟨-, -, hret, -⟩ := hcases
  · exact absurd hneg (by decide)
  · exact absurd hret (by decide)

end LinuxFunctionTest.DummyUsb
