import LinuxFunctionTest.Library.Errno
import LinuxFunctionTest.Library.Ledger
import LinuxFunctionTest.Library.Machine
import LinuxFunctionTest.Sketh.ReceiveFrames

/-!
# The life of a sketh adapter

Probe and remove on both buses, open and stop, suspend and resume, with the transmit and poll functions in
between. A function that dereferences a NULL pointer, or reads the union of the adapter as the member
that was not stored, faults there, and a fault ends the run. `sketh_setup_rx_resources` and
`sketh_setup_tx_resources` have no caller, no function attaches an XDP program, and none calls
`netif_napi_add`. A ledger records what is acquired and released; the driver does not see it.
-/

namespace LinuxFunctionTest.Sketh

/-- `SKETH_MAX_NUM_QUEUES`. -/
def skethMaxNumQueues : ℤ := 16

/-- `SKETH_RX_MAX_DESC`. -/
def skethRxMaxDesc : ℕ := 512

/-- `SKETH_TX_MAX_DESC`. -/
def skethTxMaxDesc : ℕ := 512

/-- The bus of the probe: which member of the union in the adapter it stored. -/
inductive SkethBus where
  | pci
  | platform
  deriving DecidableEq

/-- The object that a faulting access did not find, or a loop without end. -/
inductive SkethFault where
  | ring
  | rxBuffer
  | txBuffer
  | desc
  | msixEntries
  | pciDev
  | endless
  deriving DecidableEq

/-- What the driver acquires and releases. -/
inductive SkethResource where
  | pciDevice
  | regions
  | ioremap
  | netdev
  | rxRing
  | txRing
  | msixEntries
  | registration
  | hook
  | irq (queue : ℕ)
  | rxBuffer (queue : ℕ)
  | txBuffer (queue : ℕ)
  | rxDesc (queue : ℕ)
  | txDesc (queue : ℕ)
  deriving DecidableEq

/-- What was acquired and released so far, newest first. -/
abbrev SkethLedger := List (LedgerEntry SkethResource)

/-- An RX ring with its pointers: whether `rx_buffer` and `desc` are set, and `desc_dma`. The slots are
those behind `rx_buffer`. -/
structure RxQueue where
  ring : SkethRxRing
  rxBuffer : Bool
  desc : Bool
  descDma : ℕ
  xdpEnabled : Bool

/-- A TX ring with its pointers. -/
structure TxQueue where
  ring : SkethTxRing
  txBuffer : Bool
  desc : Bool
  descDma : ℕ

/-- A zeroed RX ring with its count. -/
def RxQueue.zeroed (count : ℕ) : RxQueue := ⟨⟨count, 0, 0, fun _ => .empty⟩, false, false, 0, false⟩

/-- A zeroed TX ring with its count. -/
def TxQueue.zeroed (count : ℕ) : TxQueue :=
  ⟨⟨count, 0, 0, fun _ => .empty, fun _ => ⟨0, 0, 0, 0⟩⟩, false, false, 0⟩

/-- An adapter with its pointers; `msix_entries` points to the vectors. The rings in `adapter` are those of
the queue that a function works on. -/
structure SkethDev where
  bus : SkethBus
  numQueues : ℤ
  msixEntries : Option (ℕ → ℕ)
  rxRing : Option (ℕ → RxQueue)
  txRing : Option (ℕ → TxQueue)
  adapter : SkethAdapter
  rxPolls : UInt64
  devRegistered : Bool
  ledger : SkethLedger

/-- What the environment decides about an open: the results of `request_irq` and of the allocations of each
queue. -/
structure OpenEnv where
  irq : ℕ → ℤ
  alloc : ℕ → ℕ → RxAlloc

/-- What the environment decides about a probe: the module parameters, and the result of every
acquisition. -/
structure ProbeEnv where
  numQueues : ℤ
  mtu : ℤ
  enableDevice : ℤ
  requestRegions : ℤ
  getResource : Bool
  ioremap : ℤ
  allocEtherdev : Bool
  rxRing : Bool
  txRing : Bool
  msixEntries : Bool
  alloc : ℕ → ℕ → RxAlloc
  registerNetdev : ℤ
  registerNetfilter : ℤ

namespace SkethDev

/-- The queues that the loops of the driver visit. -/
def queues (d : SkethDev) : List ℕ := List.range d.numQueues.toNat

/-- Record an acquisition. -/
def acquire (d : SkethDev) (r : SkethResource) : SkethDev := { d with ledger := .acquire r :: d.ledger }

/-- Record a release. -/
def release (d : SkethDev) (r : SkethResource) : SkethDev := { d with ledger := .release r :: d.ledger }

/-- Write `__SKETH_STATE_DOWN`. -/
def setDown (d : SkethDev) (down : Bool) : SkethDev := { d with adapter := { d.adapter with down := down } }

/-- `rx_ring[q]`. -/
def rxQueue (d : SkethDev) (q : ℕ) : Except SkethFault RxQueue :=
  match d.rxRing with
  | some rings => if (q : ℤ) < d.numQueues then .ok (rings q) else .error .ring
  | none => .error .ring

/-- `tx_ring[q]`. -/
def txQueue (d : SkethDev) (q : ℕ) : Except SkethFault TxQueue :=
  match d.txRing with
  | some rings => if (q : ℤ) < d.numQueues then .ok (rings q) else .error .ring
  | none => .error .ring

/-- Write `rx_ring[q]`. -/
def setRxQueue (d : SkethDev) (q : ℕ) (rx : RxQueue) : SkethDev :=
  { d with rxRing := d.rxRing.map fun rings => Function.update rings q rx }

/-- Write `tx_ring[q]`. -/
def setTxQueue (d : SkethDev) (q : ℕ) (tx : TxQueue) : SkethDev :=
  { d with txRing := d.txRing.map fun rings => Function.update rings q tx }

/-- `vzalloc` of `count` objects: it fails on a size that is zero or negative. -/
def vzalloc (ok : Bool) (count : ℤ) : Bool := ok && decide (0 < count)

/-- `sketh_alloc_queues`. -/
def skethAllocQueues (d : SkethDev) (rxOk txOk : Bool) : SkethDev × ℤ :=
  let rx := vzalloc rxOk d.numQueues
  let tx := vzalloc txOk d.numQueues
  let d := if rx then
      { d.acquire .rxRing with rxRing := some fun _ => .zeroed skethRxMaxDesc } else d
  let d := if tx then
      { d.acquire .txRing with txRing := some fun _ => .zeroed skethTxMaxDesc } else d
  if rx && tx then (d, 0) else (d, -Errno.enomem)

/-- `sketh_free_queues`. -/
def skethFreeQueues (d : SkethDev) : SkethDev :=
  let d := if d.rxRing.isSome then { d.release .rxRing with rxRing := none } else d
  if d.txRing.isSome then { d.release .txRing with txRing := none } else d

/-- The loop of `sketh_alloc_tx_buffers`. -/
def skethAllocTxLoop : ℕ → SkethTxRing → Option SkethTxRing
  | 0, r => if r.nextToClean = r.nextToUse then some r else none
  | fuel + 1, r =>
    if r.nextToClean = r.nextToUse then some r
    else skethAllocTxLoop fuel { r with
      txBuffer := Function.update r.txBuffer r.nextToUse .empty
      nextToUse := Sketh.nextToUse r.nextToUse r.count }

/-- `sketh_alloc_tx_buffers` on queue `q`. -/
def skethAllocTxBuffers (d : SkethDev) (q : ℕ) : Except SkethFault SkethDev := do
  let tx ← d.txQueue q
  if tx.ring.nextToClean = tx.ring.nextToUse then .ok d
  else if tx.txBuffer then
    match skethAllocTxLoop tx.ring.count tx.ring with
    | some ring => .ok (d.setTxQueue q { tx with ring := ring })
    | none => .error .endless
  else .error .txBuffer

/-- The body of `sketh_set_rx_buffer_len`. -/
def skethSetRxBufferLen (d : SkethDev) (q : ℕ) : Except SkethFault SkethDev := do
  let rx ← d.rxQueue q
  if rx.xdpEnabled then
    if rx.rxBuffer then
      .ok (d.setRxQueue q { rx with ring := { rx.ring with
        rxBuffer := Function.update rx.ring.rxBuffer 0 { rx.ring.rxBuffer 0 with skb := none } } })
    else .error .rxBuffer
  else .ok d

/-- `sketh_alloc_rx_buffers` on queue `q`. The first buffer allocated is stored and then mapped. -/
def skethAllocRxBuffers (d : SkethDev) (q cleanedCount : ℕ) (outcome : ℕ → RxAlloc) :
    Except SkethFault SkethDev := do
  let rx ← d.rxQueue q
  let a := Sketh.skethAllocRxBuffers { d.adapter with rxRing := rx.ring } cleanedCount outcome
  let filled := { d.setRxQueue q { rx with ring := a.rxRing } with adapter := a }
  if cleanedCount = 0 ∨ outcome 0 = .noSkb then .ok filled
  else if !rx.rxBuffer then .error .rxBuffer
  else if d.bus ≠ .pci then .error .pciDev
  else .ok filled

/-- `sketh_configure`. -/
def skethConfigure (d : SkethDev) (alloc : ℕ → ℕ → RxAlloc) : Except SkethFault SkethDev := do
  let d ← d.queues.foldlM skethAllocTxBuffers d
  let d ← d.queues.foldlM skethSetRxBufferLen d
  d.queues.foldlM (fun d q => do
    let rx ← d.rxQueue q
    d.skethAllocRxBuffers q rx.ring.count (alloc q)) d

/-- The loop of `sketh_request_irqs` from queue `i`. On a failure it frees what it requested. -/
def skethRequestIrqsLoop (irq : ℕ → ℤ) : ℕ → SkethDev → ℕ → Except SkethFault (SkethDev × ℤ)
  | 0, d, _ => .ok (d, 0)
  | rest + 1, d, i =>
    match d.msixEntries with
    | none => .error .msixEntries
    | some _ =>
      if irq i ≠ 0 then
        .ok ((List.range i).reverse.foldl (fun d j => d.release (.irq j)) d, irq i)
      else skethRequestIrqsLoop irq rest (d.acquire (.irq i)) (i + 1)

/-- `sketh_request_irqs`. -/
def skethRequestIrqs (d : SkethDev) (irq : ℕ → ℤ) : Except SkethFault (SkethDev × ℤ) :=
  skethRequestIrqsLoop irq d.numQueues.toNat d 0

/-- `sketh_free_irqs`: an entry whose vector is zero is passed over. -/
def skethFreeIrqs (d : SkethDev) : SkethDev :=
  match d.msixEntries with
  | none => d
  | some vector =>
    let d := d.queues.foldl (fun d q => if vector q ≠ 0 then d.release (.irq q) else d) d
    { d.release .msixEntries with msixEntries := none }

/-- `sketh_open`. What `napi_enable` does to an instance that no function handed to `netif_napi_add` is the kernel's
affair: it is taken to return. -/
def skethOpen (d : SkethDev) (env : OpenEnv) : Except SkethFault (SkethDev × ℤ) :=
  if d.adapter.down then .ok (d, -Errno.ebusy)
  else do
    let (d, err) ← d.skethRequestIrqs env.irq
    if err ≠ 0 then .ok (d, err)
    else do
      let d ← d.skethConfigure env.alloc
      .ok (d.setDown false, 0)

/-- `sketh_free_tx_resources` on queue `q`. -/
def skethFreeTxResources (d : SkethDev) (q : ℕ) : Except SkethFault SkethDev := do
  let tx ← d.txQueue q
  let d := if tx.txBuffer then
      (d.release (.txBuffer q)).setTxQueue q { tx with txBuffer := false } else d
  if tx.desc && tx.descDma ≠ 0 then
    if d.bus ≠ .pci then .error .pciDev
    else .ok ((d.release (.txDesc q)).setTxQueue q
      { tx with txBuffer := false, desc := false, descDma := 0 })
  else .ok d

/-- `sketh_free_rx_resources` on queue `q`. -/
def skethFreeRxResources (d : SkethDev) (q : ℕ) : Except SkethFault SkethDev := do
  let rx ← d.rxQueue q
  let d := if rx.rxBuffer then
      (d.release (.rxBuffer q)).setRxQueue q { rx with rxBuffer := false } else d
  if rx.desc && rx.descDma ≠ 0 then
    if d.bus ≠ .pci then .error .pciDev
    else .ok ((d.release (.rxDesc q)).setRxQueue q
      { rx with rxBuffer := false, desc := false, descDma := 0 })
  else .ok d

/-- The last loop of `sketh_stop`. -/
def skethStopQueue (d : SkethDev) (q : ℕ) : Except SkethFault SkethDev := do
  let tx ← d.txQueue q
  let rx ← d.rxQueue q
  let txFreed := if tx.desc then d.skethFreeTxResources q else .ok d
  let d ← txFreed
  if rx.desc then d.skethFreeRxResources q else .ok d

/-- `sketh_stop`; `napi_disable` is taken to return. -/
def skethStop (d : SkethDev) : Except SkethFault SkethDev :=
  let d := (d.setDown true).skethFreeIrqs
  d.queues.foldlM skethStopQueue d

/-- `sketh_start_xmit` on queue `q`. -/
def skethStartXmit (d : SkethDev) (q : ℕ) (skb : SkBuff) (dma : Option ℕ) :
    Except SkethFault SkethDev :=
  if skb.len = 0 ∨ d.adapter.down then
    .ok { d with adapter := Sketh.skethStartXmit d.adapter skb dma }
  else if d.bus ≠ .pci then .error .pciDev
  else if dma = none then .ok { d with adapter := Sketh.skethStartXmit d.adapter skb dma }
  else do
    let tx ← d.txQueue q
    if !tx.txBuffer then .error .txBuffer
    else if !tx.desc then .error .desc
    else
      let a := Sketh.skethStartXmit { d.adapter with txRing := tx.ring } skb dma
      .ok { d.setTxQueue q { tx with ring := a.txRing } with adapter := a }

/-- The adapter with the rings that a poll works on; no XDP program is attached. -/
def queuePair (d : SkethDev) (rx : RxQueue) (tx : TxQueue) : SkethAdapter :=
  { d.adapter with rxRing := rx.ring, txRing := tx.ring, xdpProg := false }

/-- `sketh_napi_poll` on queue `q`. The cleaning of the TX ring unmaps the mapped slots on its way. -/
def skethNapiPoll (d : SkethDev) (q : ℕ) (call : RxCall) : Except SkethFault SkethDev := do
  let rx ← d.rxQueue q
  let tx ← d.txQueue q
  let takes := call.budget % 2 ^ 32 ≠ 0
  let cleans := 0 < call.budget ∧ tx.ring.nextToClean ≠ tx.ring.nextToUse
  if takes ∧ rx.rxBuffer = false then .error .rxBuffer
  else if takes ∧ (rx.ring.rxBuffer rx.ring.nextToClean).skb ≠ none ∧ d.bus ≠ .pci then .error .pciDev
  else if cleans ∧ tx.txBuffer = false then .error .txBuffer
  else if cleans ∧ (∃ i ∈ tx.ring.flightSpan, (tx.ring.txBuffer i).skb ≠ none ∧
      (tx.ring.txBuffer i).mapped) ∧ d.bus ≠ .pci then .error .pciDev
  else
    match Sketh.skethNapiPoll (d.queuePair rx tx) d.msixEntries.isSome call with
    | none => .error .endless
    | some (a, _) =>
      let d := (d.setRxQueue q { rx with ring := a.rxRing }).setTxQueue q { tx with ring := a.txRing }
      .ok { d with adapter := a, rxPolls := d.rxPolls + 1 }

/-- The adapter behind `alloc_etherdev_mqs`, with the fields that both probes set. -/
def skethAlloced (bus : SkethBus) (env : ProbeEnv) (ledger : SkethLedger) : SkethDev where
  bus := bus
  numQueues := min env.numQueues skethMaxNumQueues
  msixEntries := none
  rxRing := none
  txRing := none
  adapter := { skethProbed with mtu := UInt32.ofInt env.mtu }
  rxPolls := 0
  devRegistered := false
  ledger := .acquire .netdev :: ledger

/-- `register_netdev` has succeeded: the rest of both probes. -/
def skethRegistered (d : SkethDev) (env : ProbeEnv) : SkethDev :=
  let d := { d.acquire .registration with devRegistered := true }
  if env.registerNetfilter = 0 then d.acquire .hook else d

/-- `err_free_netdev` of `sketh_probe`. -/
def errFreeNetdev (d : SkethDev) : SkethDev := (d.release .regions).release .pciDevice

/-- `err_alloc_queues` of `sketh_probe`. -/
def errAllocQueues (d : SkethDev) : SkethDev := (d.release .netdev).errFreeNetdev

/-- `err_msix` of `sketh_probe`. -/
def errMsix (d : SkethDev) : SkethDev := d.skethFreeQueues.errAllocQueues

/-- `err_register` of `sketh_probe`. -/
def errRegister (d : SkethDev) : SkethDev := (d.release .msixEntries).errMsix

/-- `sketh_probe` behind `alloc_etherdev_mqs`. -/
def skethProbeQueues (d : SkethDev) (env : ProbeEnv) : Except SkethFault (SkethDev × ℤ) :=
  let (d, err) := d.skethAllocQueues env.rxRing env.txRing
  if err ≠ 0 then .ok (d.errAllocQueues, err)
  else if !vzalloc env.msixEntries d.numQueues then .ok (d.errMsix, -Errno.enomem)
  else do
    let d ← { d.acquire .msixEntries with msixEntries := some fun _ => 0 }.skethConfigure env.alloc
    if env.registerNetdev ≠ 0 then .ok (d.errRegister, env.registerNetdev)
    else .ok (d.skethRegistered env, 0)

/-- `sketh_probe`. -/
def skethProbe (env : ProbeEnv) : Except SkethFault (SkethDev × ℤ) :=
  let d := { skethAlloced .pci env [] with ledger := [] }
  if env.enableDevice ≠ 0 then .ok (d, env.enableDevice)
  else
    let d := d.acquire .pciDevice
    if env.requestRegions ≠ 0 then .ok (d.release .pciDevice, env.requestRegions)
    else
      let d := d.acquire .regions
      if !env.allocEtherdev then .ok (d.errFreeNetdev, -Errno.enomem)
      else (skethAlloced .pci env d.ledger).skethProbeQueues env

/-- `err_alloc_queues` of `sketh_platform_probe`. -/
def errPlatformAllocQueues (d : SkethDev) : SkethDev := d.release .netdev

/-- `err_get_resources` of `sketh_platform_probe`. -/
def errGetResources (d : SkethDev) : SkethDev := d.skethFreeQueues.errPlatformAllocQueues

/-- `err_register` of `sketh_platform_probe`. -/
def errPlatformRegister (d : SkethDev) : SkethDev := (d.release .ioremap).errGetResources

/-- `sketh_platform_probe` behind `alloc_etherdev_mqs`. -/
def skethPlatformProbeQueues (d : SkethDev) (env : ProbeEnv) : Except SkethFault (SkethDev × ℤ) :=
  let (d, err) := d.skethAllocQueues env.rxRing env.txRing
  if err ≠ 0 then .ok (d.errPlatformAllocQueues, err)
  else if !env.getResource then .ok (d.errGetResources, -Errno.enodev)
  else if env.ioremap ≠ 0 then .ok (d.errGetResources, env.ioremap)
  else do
    let d ← (d.acquire .ioremap).skethConfigure env.alloc
    if env.registerNetdev ≠ 0 then .ok (d.errPlatformRegister, env.registerNetdev)
    else .ok (d.skethRegistered env, 0)

/-- `sketh_platform_probe`. -/
def skethPlatformProbe (env : ProbeEnv) : Except SkethFault (SkethDev × ℤ) :=
  if !env.allocEtherdev then
    .ok ({ skethAlloced .platform env [] with ledger := [] }, -Errno.enomem)
  else (skethAlloced .platform env []).skethPlatformProbeQueues env

/-- The probe of a bus. -/
def probe : SkethBus → ProbeEnv → Except SkethFault (SkethDev × ℤ)
  | .pci => skethProbe
  | .platform => skethPlatformProbe

/-- The unregistering of both removes; the core closes a running interface. -/
def skethUnregister (d : SkethDev) (running : Bool) : Except SkethFault SkethDev :=
  if d.devRegistered then do
    let d := d.release .hook
    let closed := if running then d.skethStop else .ok d
    let d ← closed
    .ok (d.release .registration)
  else .ok d

/-- `sketh_remove`. -/
def skethRemove (d : SkethDev) (running : Bool) : Except SkethFault SkethDev := do
  let d ← d.skethUnregister running
  let d := d.skethFreeQueues
  let d := if d.msixEntries.isSome then d.release .msixEntries else d
  .ok (((d.release .netdev).release .regions).release .pciDevice)

/-- `sketh_platform_remove`. -/
def skethPlatformRemove (d : SkethDev) (running : Bool) : Except SkethFault SkethDev := do
  let d ← d.skethUnregister running
  .ok ((d.release .ioremap).skethFreeQueues.release .netdev)

/-- The remove of the bus that the device is on. -/
def remove (d : SkethDev) (running : Bool) : Except SkethFault SkethDev :=
  match d.bus with
  | .pci => d.skethRemove running
  | .platform => d.skethPlatformRemove running

end SkethDev

/-- The probe allocates one of the two ring arrays only. -/
def HalfRings (bus : SkethBus) (env : ProbeEnv) : Prop :=
  env.allocEtherdev = true ∧ (bus = .pci → env.enableDevice = 0 ∧ env.requestRegions = 0) ∧
    0 < env.numQueues ∧ env.rxRing ≠ env.txRing

instance (bus : SkethBus) (env : ProbeEnv) : Decidable (HalfRings bus env) := by
  unfold HalfRings
  infer_instance

/-- How far the device is. -/
inductive SkethPhase where
  | unbound
  | bound
  | failed
  | removed
  deriving DecidableEq

/-- The adapter and what the kernel keeps about it: whether the interface is running, whether the network
device is attached, and whether the platform device is suspended. -/
structure SkethSystem where
  dev : SkethDev
  phase : SkethPhase
  running : Bool
  attached : Bool
  suspended : Bool
  fault : Option SkethFault

/-- What the kernel asks of the driver. -/
inductive SkethCall where
  | probe (bus : SkethBus) (env : ProbeEnv)
  | open (env : OpenEnv)
  | stop
  | suspend
  | resume (env : OpenEnv)
  | startXmit (q : ℕ) (skb : SkBuff) (dma : Option ℕ)
  | napiPoll (q : ℕ) (call : RxCall)
  | remove

namespace SkethSystem

/-- The kernel goes on with the result of a call, or stops at its fault. -/
def settle {β : Type} (s : SkethSystem) (result : Except SkethFault β) (next : β → SkethSystem) :
    SkethSystem :=
  match result with
  | .ok b => next b
  | .error f => { s with fault := some f }

/-- The probe of the bus. -/
def skethProbe (s : SkethSystem) (bus : SkethBus) (env : ProbeEnv) : SkethSystem :=
  s.settle (SkethDev.probe bus env) fun r =>
    { s with dev := r.1, phase := if r.2 = 0 then .bound else .failed }

/-- The core opens the interface; an error leaves it closed. -/
def devOpen (s : SkethSystem) (env : OpenEnv) : SkethSystem :=
  s.settle (s.dev.skethOpen env) fun r => { s with dev := r.1, running := decide (r.2 = 0) }

/-- The core closes the interface. -/
def devClose (s : SkethSystem) : SkethSystem :=
  s.settle s.dev.skethStop fun d => { s with dev := d, running := false }

/-- `sketh_platform_suspend`. -/
def skethPlatformSuspend (s : SkethSystem) : SkethSystem :=
  s.settle (if s.running then s.dev.skethStop else .ok s.dev) fun d =>
    { s with dev := d, attached := false, suspended := true }

/-- `sketh_platform_resume`. -/
def skethPlatformResume (s : SkethSystem) (env : OpenEnv) : SkethSystem :=
  s.settle (if s.running then s.dev.skethOpen env else .ok (s.dev, 0)) fun r =>
    { s with dev := r.1, attached := s.attached || decide (r.2 = 0), suspended := false }

/-- The remove of the bus. -/
def skethRemove (s : SkethSystem) : SkethSystem :=
  s.settle (s.dev.remove s.running) fun d => { s with dev := d, phase := .removed, running := false }

/-- `sketh_start_xmit` on a new buffer. -/
def skethStartXmit (s : SkethSystem) (q : ℕ) (skb : SkBuff) (dma : Option ℕ) : SkethSystem :=
  let d := { s.dev with adapter := s.dev.adapter.nextBuffer }
  s.settle (d.skethStartXmit q { skb with id := s.dev.adapter.fresh } dma) fun d => { s with dev := d }

/-- `sketh_napi_poll`. -/
def skethNapiPoll (s : SkethSystem) (q : ℕ) (call : RxCall) : SkethSystem :=
  s.settle (s.dev.skethNapiPoll q call) fun d => { s with dev := d }

/-- The interface is open: it runs and is attached. -/
def Opened (s : SkethSystem) : Prop := s.running = true ∧ s.attached = true

instance (s : SkethSystem) : Decidable s.Opened := by
  unfold Opened
  infer_instance

/-- When the kernel makes a call: it opens an attached interface that does not run, closes one that runs, and
hands packets and polls to an open one. Only a platform device is suspended. -/
def Permits (s : SkethSystem) : SkethCall → Prop
  | .probe _ _ => s.phase = .unbound
  | .open _ => s.phase = .bound ∧ s.running = false ∧ s.attached = true
  | .stop => s.phase = .bound ∧ s.running = true
  | .suspend => s.phase = .bound ∧ s.dev.bus = .platform ∧ s.suspended = false
  | .resume _ => s.phase = .bound ∧ s.suspended = true
  | .startXmit _ _ _ => s.phase = .bound ∧ s.Opened
  | .napiPoll q _ => s.phase = .bound ∧ s.Opened ∧ (q : ℤ) < s.dev.numQueues
  | .remove => s.phase = .bound

instance (s : SkethSystem) (call : SkethCall) : Decidable (s.Permits call) := by
  cases call <;> unfold Permits <;> infer_instance

/-- The call. -/
def perform (s : SkethSystem) : SkethCall → SkethSystem
  | .probe bus env => s.skethProbe bus env
  | .open env => s.devOpen env
  | .stop => s.devClose
  | .suspend => s.skethPlatformSuspend
  | .resume env => s.skethPlatformResume env
  | .startXmit q skb dma => s.skethStartXmit q skb dma
  | .napiPoll q call => s.skethNapiPoll q call
  | .remove => s.skethRemove

end SkethSystem

/-- The calls the kernel may make, until one faults. -/
def skethMachine : Machine SkethSystem SkethCall where
  step s call := if s.fault = none ∧ s.Permits call then some (s.perform call) else none

/-- A device that no driver was probed for. -/
def skethUnbound : SkethSystem where
  dev := { SkethDev.skethAlloced .pci ⟨0, 0, 0, 0, false, 0, false, false, false, false,
    fun _ _ => .noSkb, 0, 0⟩ [] with ledger := [] }
  phase := .unbound
  running := false
  attached := true
  suspended := false
  fault := none

end LinuxFunctionTest.Sketh
