import LinuxFunctionTest.Ncm.Block
import LinuxFunctionTest.Library.Alignment

/-!
# Aggregation of outgoing datagrams

The transmit path collects datagrams in one transfer block until the block is full, its datagram
limit is reached, or a timer runs out. A datagram that finds no room waits for the next block. The
pointer table stands in front of the datagrams or, for devices that need it so, is collected aside
and put at the end. A computation is `none` where the kernel would stop: on a write beyond the
buffer (`skb_over_panic`), on a delayed table without memory, and on a cyclic chain of tables.
-/

namespace LinuxFunctionTest.Ncm

open LinuxFunctionTest.Image LinuxFunctionTest.Alignment

/-- `CDC_NCM_DPT_DATAGRAMS_MAX` -/
def dptDatagramsMax : ℕ := 40

/-- `USB_CDC_NCM_NTB_MIN_OUT_SIZE` -/
def ntbMinOutSize : ℕ := 2048

/-- `CDC_NCM_LOW_MEM_MAX_CNT` -/
def lowMemMaxCnt : ℕ := 10

/-- `CDC_NCM_TIMER_PENDING_CNT` -/
def timerPendingCnt : ℕ := 2

/-- `CDC_NCM_RESTART_TIMER_DATAGRAM_CNT` -/
def restartTimerDatagramCnt : ℕ := 3

/-- An outgoing buffer: its data and the bytes allocated for them. -/
structure SkbOut where
  data : List UInt8
  capacity : ℕ

/-- `skb_tailroom` -/
def SkbOut.tailroom (skb : SkbOut) : ℕ := skb.capacity - skb.data.length

/-- `skb_put_data`, which stops the kernel where the bytes do not fit. -/
def SkbOut.put (skb : SkbOut) (bytes : List UInt8) : Option SkbOut :=
  if bytes.length ≤ skb.tailroom then some { skb with data := skb.data ++ bytes } else none

/-- What `cdc_ncm_ctx` and the device keep fixed while datagrams are collected. -/
structure TxSettings where
  isNdp16 : Bool
  /-- `CDC_NCM_FLAG_NDP_TO_END` of `drvflags` -/
  ndpToEnd : Bool
  /-- Whether there is memory for a delayed table. -/
  delayedAllocated : Bool
  maxNdpSize : ℕ
  txNdpModulus : ℕ
  txModulus : ℕ
  txRemainder : ℕ
  txMaxDatagrams : ℕ
  txMax : ℕ
  minTxPkt : ℕ
  timerInterval : ℕ
  /-- `FLAG_SEND_ZLP` of the driver info -/
  sendZlp : Bool
  maxpacket : ℕ

/-- The format of the blocks. -/
def TxSettings.format (set : TxSettings) : NtbFormat := ntbFormat set.isNdp16

/-- The fields of `cdc_ncm_ctx` that transmission changes. -/
structure TxCtx where
  set : TxSettings
  /-- What `delayed_ndp16` or `delayed_ndp32` points to; zeros while there is no memory for it. -/
  delayedNdp : List UInt8
  txRemSkb : Option Frame
  txRemSign : ℕ
  txCurrSkb : Option SkbOut
  txCurrSize : ℕ
  txCurrFrameNum : ℕ
  txCurrFramePayload : ℕ
  txLowMemVal : ℕ
  txLowMemMaxCnt : ℕ
  txSeq : ℕ
  txTimerPending : ℕ
  /-- `hrtimer_active` of the timer -/
  timerActive : Bool
  stop : Bool
  txReasonNdpFull : ℕ
  txReasonNtbFull : ℕ
  txReasonTimeout : ℕ
  txReasonMaxDatagram : ℕ
  txOverhead : ℕ
  txNtbs : ℕ
  txDropped : ℕ

/-- How memory answers: what each allocation has beyond the size asked for, none where it fails. -/
structure Memory where
  full : Option (Fin (2 ^ 31))
  small : Option (Fin (2 ^ 31))

/-- `cdc_ncm_align_tail` -/
def alignTail (skb : SkbOut) (modulus remainder max : ℕ) : SkbOut :=
  let len := skb.data.length
  let padding := subWord 32 (align 32 len modulus) len + remainder
  let padding := if len + padding > max then subWord 64 max len else padding
  if padding ≠ 0 ∧ padding ≤ skb.tailroom then { skb with data := skb.data ++ List.replicate padding 0 }
  else skb

/-- Where a pointer table lies. -/
inductive NdpPtr where
  | delayed
  | inSkb (offset : ℕ)

/-- Follow the chain of tables from an offset: the table with the signature, if there is one, and the last table
met before. A chain longer than there are offsets never ends. -/
def findNdp (f : NtbFormat) (data : List UInt8) (sign : ℕ) : ℕ → ℕ → Option ℕ → Option (Option ℕ × Option ℕ)
  | 0, ndpoffset, last => if ndpoffset = 0 then some (none, last) else none
  | fuel + 1, ndpoffset, last =>
    if ndpoffset = 0 then some (none, last)
    else if load data ndpoffset 4 = sign then some (some ndpoffset, last)
    else findNdp f data sign fuel (load data (ndpoffset + f.nextNdp) f.width) (some ndpoffset)

/-- Find the table for a signature or make a new one; none where there is no room for it. -/
def ndp (f : NtbFormat) (ctx : TxCtx) (skb : SkbOut) (sign reserve : ℕ) :
    Option (TxCtx × SkbOut × Option NdpPtr) :=
  if ctx.set.ndpToEnd ∧ ¬ ctx.set.delayedAllocated then none
  else if ctx.set.ndpToEnd ∧ load ctx.delayedNdp 0 4 = sign then some (ctx, skb, some .delayed)
  else if ctx.set.ndpToEnd ∧ load ctx.delayedNdp 0 4 ≠ 0 then some (ctx, skb, none)
  else
    (findNdp f skb.data sign (256 ^ f.width) (load skb.data f.ndpIndex f.width) none).bind fun found =>
      match found.1 with
      | some offset => some (ctx, skb, some (.inSkb offset))
      | none =>
        let skb := if ctx.set.ndpToEnd then skb else alignTail skb ctx.set.txNdpModulus 0 ctx.txCurrSize
        if subWord 64 (subWord 32 ctx.txCurrSize skb.data.length) reserve < ctx.set.maxNdpSize then
          some (ctx, skb, none)
        else
          let here := skb.data.length
          let link := found.2.elim f.ndpIndex (· + f.nextNdp)
          let skb := { skb with data := store skb.data link f.width here }
          if ctx.set.ndpToEnd then
            some ({ ctx with delayedNdp := startNdp f sign ctx.delayedNdp 0 }, skb, some .delayed)
          else
            (skb.put (List.replicate ctx.set.maxNdpSize 0)).map fun skb =>
              (ctx, { skb with data := startNdp f sign skb.data here }, some (.inSkb here))

/-- `cdc_ncm_ndp16` -/
def ndp16 : TxCtx → SkbOut → ℕ → ℕ → Option (TxCtx × SkbOut × Option NdpPtr) := ndp ntb16

/-- `cdc_ncm_ndp32` -/
def ndp32 : TxCtx → SkbOut → ℕ → ℕ → Option (TxCtx × SkbOut × Option NdpPtr) := ndp ntb32

/-- The room a delayed table needs at the end of the block. -/
def delayedNdpSize (set : TxSettings) : ℕ :=
  if set.ndpToEnd then set.maxNdpSize + max set.txNdpModulus (set.txModulus + set.txRemainder) - 1 else 0

/-- The variables of `cdc_ncm_fill_tx_frame` in its loop. -/
structure Fill where
  ctx : TxCtx
  skbOut : SkbOut
  skb : Option Frame
  sign : ℕ
  n : ℕ
  ready2send : Bool

/-- No room for the datagram: it is dropped from an empty block and stored for later otherwise. -/
def noRoom (s : Fill) (skb : Frame) : Fill :=
  if s.n = 0 then
    { s with skb := none, ctx := { s.ctx with txDropped := s.ctx.txDropped + 1 } }
  else
    { s with
      skb := none
      ready2send := true
      ctx := { s.ctx with
        txDropped := if s.ctx.txRemSkb.isSome then s.ctx.txDropped + 1 else s.ctx.txDropped
        txRemSkb := some skb
        txRemSign := s.sign
        txReasonNtbFull := s.ctx.txReasonNtbFull + 1 } }

/-- Enter the datagram in the table and append it; the flag says that the table is full. -/
def addDatagram (f : NtbFormat) (s : Fill) (ptr : NdpPtr) (skb : Frame) : Option (Fill × Bool) :=
  let offset := s.skbOut.data.length
  let entered := match ptr with
    | .delayed => addEntry f s.ctx.delayedNdp 0 offset skb.length
    | .inSkb p => addEntry f s.skbOut.data p offset skb.length
  let ctx := match ptr with
    | .delayed => { s.ctx with delayedNdp := entered.1 }
    | .inSkb _ => s.ctx
  let skbOut := match ptr with
    | .delayed => s.skbOut
    | .inSkb _ => { s.skbOut with data := entered.1 }
  (skbOut.put skb).map fun skbOut =>
    let ctx : TxCtx := { ctx with txCurrFramePayload := ctx.txCurrFramePayload + skb.length }
    if entered.2 ≥ dptDatagramsMax then
      ({ s with
        ctx := { ctx with txReasonNdpFull := ctx.txReasonNdpFull + 1 }
        skbOut := skbOut, skb := none, ready2send := true }, true)
    else ({ s with ctx := ctx, skbOut := skbOut, skb := none, n := s.n + 1 }, false)

/-- Without a datagram at hand, take the remaining one. -/
def takeRemaining (s : Fill) : Fill :=
  if s.skb.isNone then
    { s with skb := s.ctx.txRemSkb, sign := s.ctx.txRemSign, ctx := { s.ctx with txRemSkb := none } }
  else s

/-- Find a place for the datagram at hand: its table, and room behind the alignment. -/
def place (f : NtbFormat) (s : Fill) (skb : Frame) : Option (Fill × Bool) :=
  let set := s.ctx.set
  (ndp f s.ctx s.skbOut s.sign (skb.length + set.txModulus + set.txRemainder)).bind fun found =>
    let s : Fill := { s with
      ctx := found.1
      skbOut := alignTail found.2.1 set.txModulus set.txRemainder found.1.txCurrSize }
    match found.2.2 with
    | none => some (noRoom s skb, true)
    | some ptr =>
      if (s.skbOut.data.length + skb.length + delayedNdpSize set) % 2 ^ 32 > s.ctx.txCurrSize then
        some (noRoom s skb, true)
      else addDatagram f s ptr skb

/-- One pass of the loop over the datagrams of a block; the flag says that it leaves the loop. -/
def fillStep (f : NtbFormat) (s : Fill) : Option (Fill × Bool) :=
  let s := takeRemaining s
  match s.skb with
  | none => some (s, true)
  | some skb => place f s skb

/-- The loop over the datagrams of a block, with the passes left. -/
def fillLoop (f : NtbFormat) : ℕ → Fill → Option Fill
  | 0, s => some s
  | passes + 1, s => (fillStep f s).bind fun next => if next.2 then some next.1 else fillLoop f passes next.1

/-- `cdc_ncm_tx_timeout_start` -/
def txTimeoutStart (ctx : TxCtx) : TxCtx :=
  if ctx.timerActive ∨ ctx.stop then ctx else { ctx with timerActive := true }

/-- The exit of `cdc_ncm_fill_tx_frame` without a block to send. -/
def exitNoSkb (ctx : TxCtx) (n : ℕ) : TxCtx :=
  if ctx.txCurrSkb.isSome ∧ n > 0 then txTimeoutStart ctx else ctx

/-- A buffer of the full size, or of the smallest size after a failure; none where both fail. -/
def allocOut (ctx : TxCtx) (skb : Option Frame) (mem : Memory) : TxCtx × Option SkbOut :=
  let small (ctx : TxCtx) : TxCtx × Option SkbOut :=
    let ctx : TxCtx := { ctx with txCurrSize := skb.elim ntbMinOutSize fun skb => max skb.length ntbMinOutSize }
    match mem.small with
    | none => (ctx, none)
    | some slack => ({ ctx with txLowMemVal := ctx.txLowMemVal - 1 }, some ⟨[], ctx.txCurrSize + slack⟩)
  if ctx.txLowMemVal = 0 then
    let ctx : TxCtx := { ctx with txCurrSize := ctx.set.txMax }
    match mem.full with
    | some slack => (ctx, some ⟨[], ctx.txCurrSize + slack⟩)
    | none =>
      if ctx.txCurrSize = ntbMinOutSize then (ctx, none)
      else
        let count := min (ctx.txLowMemMaxCnt + 1) lowMemMaxCnt
        small { ctx with txLowMemMaxCnt := count, txLowMemVal := count }
  else small ctx

/-- Start a block in a fresh buffer. -/
def putHeader (f : NtbFormat) (ctx : TxCtx) (skbOut : SkbOut) : Option (TxCtx × SkbOut) :=
  (skbOut.put (List.replicate f.nthSize 0)).map fun skbOut =>
    ({ ctx with txSeq := (ctx.txSeq + 1) % 2 ^ 16, txCurrFrameNum := 0, txCurrFramePayload := 0 },
      { skbOut with data := store (store (store skbOut.data 0 4 f.nthSign) 4 2 f.nthSize) 6 2 ctx.txSeq })

/-- Put a delayed table at the end of the block and forget it. -/
def putDelayedNdp (f : NtbFormat) (ctx : TxCtx) (skbOut : SkbOut) : Option (TxCtx × SkbOut) :=
  if ctx.set.ndpToEnd then
    let skbOut := alignTail skbOut ctx.set.txNdpModulus 0 (subWord 32 ctx.txCurrSize ctx.set.maxNdpSize)
    let skbOut := { skbOut with data := store skbOut.data f.ndpIndex f.width skbOut.data.length }
    (skbOut.put (ctx.delayedNdp.take ctx.set.maxNdpSize)).map fun skbOut =>
      ({ ctx with delayedNdp := List.replicate ctx.set.maxNdpSize 0 }, skbOut)
  else some (ctx, skbOut)

/-- Pad the block to its full size, or by one byte where it would end with a full packet. -/
def pad (ctx : TxCtx) (skbOut : SkbOut) : Option SkbOut :=
  let len := skbOut.data.length
  if ¬ ctx.set.sendZlp ∧ len > ctx.set.minTxPkt then
    let padding := subWord 32 ctx.txCurrSize len
    if padding > ctx.txCurrSize then some skbOut else skbOut.put (List.replicate padding 0)
  else if len < ctx.txCurrSize ∧ len % ctx.set.maxpacket = 0 then skbOut.put [0]
  else some skbOut

/-- Complete a block and hand it out. -/
def sendNtb (f : NtbFormat) (ctx : TxCtx) (skbOut : SkbOut) : Option (TxCtx × SkbOut) :=
  (putDelayedNdp f ctx skbOut).bind fun put =>
    (pad put.1 put.2).map fun skbOut =>
      ({ put.1 with
          txCurrSkb := none
          txOverhead := put.1.txOverhead + subWord 32 skbOut.data.length (put.1.txCurrFramePayload % 2 ^ 32)
          txNtbs := put.1.txNtbs + 1 },
        { skbOut with data := store skbOut.data 8 f.width skbOut.data.length })

/-- What `cdc_ncm_fill_tx_frame` does with the block behind its loop. -/
def afterLoop (f : NtbFormat) (s : Fill) : Option (TxCtx × Option SkbOut) :=
  let ctx : TxCtx := { s.ctx with
    txDropped := if s.skb.isSome then s.ctx.txDropped + 1 else s.ctx.txDropped
    txCurrFrameNum := s.n }
  if s.n = 0 then some (exitNoSkb { ctx with txCurrSkb := some s.skbOut } s.n, none)
  else if s.n < ctx.set.txMaxDatagrams ∧ s.ready2send = false ∧ ctx.set.timerInterval > 0 then
    let pending := if s.n < restartTimerDatagramCnt then timerPendingCnt else ctx.txTimerPending
    some (exitNoSkb { ctx with txCurrSkb := some s.skbOut, txTimerPending := pending } s.n, none)
  else
    let ctx : TxCtx := { ctx with
      txReasonMaxDatagram :=
        if s.n = ctx.set.txMaxDatagrams then ctx.txReasonMaxDatagram + 1 else ctx.txReasonMaxDatagram }
    (sendNtb f ctx s.skbOut).map fun sent => (sent.1, some sent.2)

/-- A remaining datagram gets priority over the new one, which remains in its place. -/
def swapRemaining (ctx : TxCtx) (skb : Option Frame) (sign : ℕ) : TxCtx × Option Frame × ℕ :=
  if skb.isSome then ({ ctx with txRemSkb := skb, txRemSign := sign }, ctx.txRemSkb, ctx.txRemSign)
  else (ctx, none, sign)

/-- Fill the block with the datagram at hand and the remaining one. -/
def fillBlock (f : NtbFormat) (ctx : TxCtx) (skbOut : SkbOut) (skb : Option Frame) (sign : ℕ) (ready2send : Bool) :
    Option (TxCtx × Option SkbOut) :=
  (fillLoop f (ctx.set.txMaxDatagrams - ctx.txCurrFrameNum)
    ⟨ctx, skbOut, skb, sign, ctx.txCurrFrameNum, ready2send⟩).bind (afterLoop f)

/-- `cdc_ncm_fill_tx_frame`: the new context and the block to send, if there is one. -/
def fillTxFrame (ctx : TxCtx) (skb : Option Frame) (sign : ℕ) (mem : Memory) : Option (TxCtx × Option SkbOut) :=
  let f := ctx.set.format
  let ready2send := skb.isNone
  let swapped := swapRemaining ctx skb sign
  let skb := swapped.2.1
  match swapped.1.txCurrSkb with
  | some skbOut => fillBlock f swapped.1 skbOut skb swapped.2.2 ready2send
  | none =>
    let found := allocOut swapped.1 skb mem
    match found.2 with
    | none =>
      let dropped := if skb.isSome then found.1.txDropped + 1 else found.1.txDropped
      some (exitNoSkb { found.1 with txDropped := dropped } 0, none)
    | some skbOut =>
      (putHeader f found.1 skbOut).bind fun put => fillBlock f put.1 put.2 skb swapped.2.2 ready2send

/-- `cdc_ncm_tx_fixup` -/
def txFixup (ctx : TxCtx) (skb : Option Frame) (mem : Memory) : Option (TxCtx × Option SkbOut) :=
  fillTxFrame ctx skb ctx.set.format.ndpSign mem

end LinuxFunctionTest.Ncm
