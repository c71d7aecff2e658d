import LinuxFunctionTest.Library.Errno
import LinuxFunctionTest.Library.ListHead
import LinuxFunctionTest.Library.Machine

/-!
# The URB lists of the host controller

`hcd.c`: `uoe_hcd_urb_enqueue` and `uoe_hcd_urb_dequeue` on the pointers of the nodes they handle.
A URB has one node, `urb_list`. The USB core links it into the list of its endpoint, and the driver
links the same node into `urb_queue`. The two core functions are modelled by what the driver relies
on: the first appends the node to the endpoint's list or fails, the second searches that list and
changes none. Both lists are well formed exactly in the runs in which no URB is accepted.
-/

namespace LinuxFunctionTest.DummyUsb

open Errno ListHeads

/-- The nodes that the calls link: the driver's `urb_queue`, the list of each endpoint, the
`urb_list` of each URB, and the poison of a deleted node. -/
inductive UrbNode where
  | urbQueue
  | endpoint (ep : ℕ)
  | urbList (urb : ℕ)
  | listPoison1
  | listPoison2
  deriving DecidableEq

/-- The fields of `struct uoe_hcd`, of the endpoints and of the URBs that the calls use. Observed:
the URBs accepted and not yet given back, in order of acceptance. -/
structure UrbHost where
  connected : Bool
  links : ListHeads UrbNode
  unlinked : ℕ → ℤ
  accepted : List ℕ

/-- After `uoe_hcd_start`: every node was initialised and points at itself. -/
def urbHostStart (connected : Bool) : UrbHost where
  connected := connected
  links := ⟨id, id⟩
  unlinked := fun _ => 0
  accepted := []

section Calls

variable (ep : ℕ → ℕ)

/-- `usb_hcd_link_urb_to_ep`; the core decides the result. -/
def usbHcdLinkUrbToEp (s : UrbHost) (urb : ℕ) (ret : ℤ) : UrbHost × ℤ :=
  if ret = 0 then
    ({ s with
      links := s.links.listAddTail (.urbList urb) (.endpoint (ep urb))
      unlinked := Function.update s.unlinked urb 0 }, 0)
  else (s, ret)

/-- `usb_hcd_check_unlink_urb`: the URB must be on the list of its endpoint and not be unlinked
already. `none` means that the search is still running after the given number of nodes. -/
def usbHcdCheckUnlinkUrb (s : UrbHost) (urb : ℕ) (status : ℤ) (fuel : ℕ) : Option (UrbHost × ℤ) :=
  (s.links.listFind (.endpoint (ep urb)) (.urbList urb) fuel
      (s.links.next (.endpoint (ep urb)))).map fun found =>
    if !found then (s, -eidrm)
    else if s.unlinked urb ≠ 0 then (s, -ebusy)
    else ({ s with unlinked := Function.update s.unlinked urb status }, 0)

/-- `uoe_hcd_urb_enqueue`. -/
def uoeHcdUrbEnqueue (s : UrbHost) (urb : ℕ) (link : ℤ) : UrbHost × ℤ :=
  if !s.connected then (s, -enodev)
  else
    let (s, ret) := usbHcdLinkUrbToEp ep s urb link
    if ret ≠ 0 then (s, ret)
    else
      ({ s with
        links := s.links.listAddTail (.urbList urb) .urbQueue
        accepted := s.accepted ++ [urb] }, 0)

/-- `uoe_hcd_urb_dequeue`. -/
def uoeHcdUrbDequeue (s : UrbHost) (urb : ℕ) (status : ℤ) (fuel : ℕ) : Option (UrbHost × ℤ) :=
  (usbHcdCheckUnlinkUrb ep s urb status fuel).map fun (s, ret) =>
    if ret ≠ 0 then (s, ret)
    else
      ({ s with
        links := s.links.listDel (.urbList urb) .listPoison1 .listPoison2
        accepted := s.accepted.erase urb }, 0)

/-- A call of the USB core with the results it leaves to the core. -/
inductive UrbCall where
  | enqueue (urb : ℕ) (link : ℤ)
  | dequeue (urb : ℕ) (status : ℤ) (fuel : ℕ)
  deriving DecidableEq

/-- The calls of the USB core. It enqueues no URB that is still active. -/
def urbMachine : Machine UrbHost UrbCall where
  step s call :=
    match call with
    | .enqueue urb link =>
      if urb ∈ s.accepted then none else some (uoeHcdUrbEnqueue ep s urb link).1
    | .dequeue urb status fuel => (uoeHcdUrbDequeue ep s urb status fuel).map (·.1)

/-- Both kinds of list are rings through the URBs accepted and not yet given back, in order of
acceptance. -/
structure UrbListsFormed (s : UrbHost) : Prop where
  urbQueue : s.links.IsRing .urbQueue (s.accepted.map .urbList)
  endpoint : ∀ e, s.links.IsRing (.endpoint e) ((s.accepted.filter (ep · = e)).map .urbList)

/-- The call does not accept a URB: it finds the controller not connected, or the core refuses to
link the URB to its endpoint. -/
def UrbRefused (s : UrbHost) : UrbCall → Prop
  | .enqueue _ link => s.connected = true → link ≠ 0
  | .dequeue _ _ _ => True

instance (s : UrbHost) (call : UrbCall) : Decidable (UrbRefused s call) :=
  match call with
  | .enqueue _ _ => inferInstanceAs (Decidable (_ → _))
  | .dequeue _ _ _ => inferInstanceAs (Decidable True)

/-- The core's part of an accepted call appends the URB to the list of its endpoint. -/
theorem usbHcdLinkUrbToEp_endpoint {s : UrbHost} (h : UrbListsFormed ep s) {urb : ℕ}
    (hurb : urb ∉ s.accepted) :
    (usbHcdLinkUrbToEp ep s urb 0).1.links.IsRing (.endpoint (ep urb))
      (((s.accepted ++ [urb]).filter (ep · = ep urb)).map .urbList) := by
  have hnew : UrbNode.urbList urb ∉
      .endpoint (ep urb) :: (s.accepted.filter (ep · = ep urb)).map .urbList := by simp [hurb]
  have hring := (h.endpoint (ep urb)).addTail hnew
  simpa [usbHcdLinkUrbToEp, List.filter_append] using hring

/-- A URB has one node, so both kinds of list are rings only while no URB is active. -/
theorem UrbListsFormed.accepted_eq_nil {s : UrbHost} (h : UrbListsFormed ep s) :
    s.accepted = [] := by
  cases hacc : s.accepted with
  | nil => rfl
  | cons urb rest =>
    have hmem : urb ∈ s.accepted := hacc ▸ List.mem_cons_self
    have hqueue : UrbNode.urbList urb ∈ s.accepted.map UrbNode.urbList :=
      List.mem_map_of_mem hmem
    have hep : UrbNode.urbList urb ∈ (s.accepted.filter (ep · = ep urb)).map UrbNode.urbList :=
      List.mem_map_of_mem (List.mem_filter.mpr ⟨hmem, by simp⟩)
    have hhead := h.urbQueue.head_mem (h.endpoint (ep urb)) hqueue hep
    simp at hhead

/-- No URB was accepted so far: every list is still empty. -/
structure UrbIdle (s : UrbHost) : Prop where
  accepted : s.accepted = []
  formed : UrbListsFormed ep s

/-- What a refused call does. -/
theorem urbMachine_step_refused {s t : UrbHost} {call : UrbCall} (hs : UrbIdle ep s)
    (ht : (urbMachine ep).step s call = some t) (hrefused : UrbRefused s call) : UrbIdle ep t := by
  cases call with
  | enqueue urb link =>
    have hnot : urb ∉ s.accepted := by simp [hs.accepted]
    simp only [urbMachine, if_neg hnot, Option.some.injEq] at ht
    have hkeep : (uoeHcdUrbEnqueue ep s urb link).1 = s := by
      by_cases hconnected : s.connected = true
      · have hlink := hrefused hconnected
        simp [uoeHcdUrbEnqueue, usbHcdLinkUrbToEp, hconnected, hlink]
      · simp [uoeHcdUrbEnqueue, hconnected]
    exact ht ▸ hkeep.symm ▸ hs
  | dequeue urb status fuel =>
    have hring := hs.formed.endpoint (ep urb)
    simp only [hs.accepted, List.filter_nil, List.map_nil] at hring
    cases fuel with
    | zero => simp [urbMachine, uoeHcdUrbDequeue, usbHcdCheckUnlinkUrb, listFind] at ht
    | succ fuel =>
      have hfind : s.links.listFind (.endpoint (ep urb)) (.urbList urb) (fuel + 1)
          (s.links.next (.endpoint (ep urb))) = some (decide (UrbNode.urbList urb ∈ [])) :=
        hring.find (Nat.zero_lt_succ fuel)
      simp [urbMachine, uoeHcdUrbDequeue, usbHcdCheckUnlinkUrb, hfind, eidrm] at ht
      exact ht ▸ hs

/-- An accepted URB is active. -/
theorem urbMachine_step_accepted {s t : UrbHost} {call : UrbCall}
    (ht : (urbMachine ep).step s call = some t) (haccepted : ¬ UrbRefused s call) :
    t.accepted ≠ [] := by
  cases call with
  | enqueue urb link =>
    simp only [UrbRefused, Classical.not_imp, ne_eq, not_not] at haccepted
    obtain ⟨hconnected, rfl⟩ := haccepted
    simp only [urbMachine] at ht
    split_ifs at ht
    obtain rfl := Option.some.inj ht
    simp [uoeHcdUrbEnqueue, usbHcdLinkUrbToEp, hconnected]
  | dequeue urb status fuel => exact absurd trivial haccepted

/-- After `uoe_hcd_start` every list is empty. -/
theorem urbHostStart_idle (connected : Bool) : UrbIdle ep (urbHostStart connected) where
  accepted := rfl
  formed := ⟨(isRing_nil_iff _ _).mpr ⟨rfl, rfl⟩, fun _ => (isRing_nil_iff _ _).mpr ⟨rfl, rfl⟩⟩

/-- In every run of enqueues and dequeues the lists are well formed in every state exactly when no
URB is accepted. -/
theorem urbListsFormed_iff_refused (connected : Bool) (calls : List UrbCall) :
    (urbMachine ep).Always (UrbListsFormed ep) (urbHostStart connected) calls ↔
      (urbMachine ep).Guarded UrbRefused (urbHostStart connected) calls :=
  (urbMachine ep).always_iff_guarded (fun _ (hs : UrbIdle ep _) => hs.formed)
    (fun _ _ _ hs ht hrefused => urbMachine_step_refused ep hs ht hrefused)
    (fun _ _ _ _ ht haccepted hformed =>
      urbMachine_step_accepted ep ht haccepted hformed.accepted_eq_nil)
    (urbHostStart_idle ep connected) calls

end Calls

/-- One accepted URB, and the list of its endpoint is no ring any more. -/
theorem urbListsFormed_broken :
    ¬ (urbMachine fun _ => 0).Always (UrbListsFormed fun _ => 0) (urbHostStart true)
      [.enqueue 1 0] := by
  intro h
  have hformed : UrbListsFormed (fun _ => 0) (uoeHcdUrbEnqueue (fun _ => 0) (urbHostStart true) 1 0).1 :=
    (h.2 _ rfl).head
  have hback := (hformed.endpoint 0).linked.2.1
  revert hback
  decide

end LinuxFunctionTest.DummyUsb
