import Mathlib.Data.List.Basic
import Mathlib.Logic.Function.Basic

/-!
# Circular doubly linked lists

The intrusive lists of the kernel: every node has one pair of pointers, a list is a ring through its
head, and a node is appended or deleted by rewriting the pointers of its neighbours. A ring is
described by the members it visits behind its head. Since a node has one pair of pointers, it is on
one ring at most.
-/

namespace LinuxFunctionTest

/-- The two pointers of every `struct list_head`. -/
structure ListHeads (ι : Type*) where
  next : ι → ι
  prev : ι → ι

namespace ListHeads

variable {ι : Type*}

/-- Consecutive nodes point at each other. -/
def Linked (l : ListHeads ι) : List ι → Prop
  | [] => True
  | [_] => True
  | x :: y :: rest => l.next x = y ∧ l.prev y = x ∧ Linked l (y :: rest)

/-- The list of `head` is a ring through the given members, each visited once. -/
structure IsRing (l : ListHeads ι) (head : ι) (members : List ι) : Prop where
  linked : l.Linked (head :: (members ++ [head]))
  nodup : (head :: members).Nodup

section Operations

variable [DecidableEq ι]

/-- `__list_add`. -/
def listInsert (l : ListHeads ι) (new prev next : ι) : ListHeads ι where
  next := Function.update (Function.update l.next new next) prev new
  prev := Function.update (Function.update l.prev next new) new prev

/-- `list_add_tail`. -/
def listAddTail (l : ListHeads ι) (new head : ι) : ListHeads ι :=
  l.listInsert new (l.prev head) head

/-- `list_del`; the pointers of the entry are poisoned. -/
def listDel (l : ListHeads ι) (entry poison1 poison2 : ι) : ListHeads ι where
  next := Function.update (Function.update l.next (l.prev entry) (l.next entry)) entry poison1
  prev := Function.update (Function.update l.prev (l.next entry) (l.prev entry)) entry poison2

/-- The search of `list_for_each` for an entry, from node `x` on; `none` means that it is still
running after the given number of nodes. -/
def listFind (l : ListHeads ι) (head entry : ι) : ℕ → ι → Option Bool
  | 0, _ => none
  | fuel + 1, x =>
    if x = head then some false
    else if x = entry then some true
    else listFind l head entry fuel (l.next x)

end Operations

/-- The parts of a chain meet in a common node. -/
theorem linked_append (l : ListHeads ι) (front : List ι) (x : ι) (back : List ι) :
    l.Linked (front ++ x :: back) ↔ l.Linked (front ++ [x]) ∧ l.Linked (x :: back) := by
  induction front with
  | nil => simp [Linked]
  | cons a rest ih =>
    cases rest with
    | nil => simp [Linked, and_assoc]
    | cons b rest =>
      simp only [List.cons_append, Linked] at ih ⊢
      rw [ih, and_assoc, and_assoc]

/-- A chain depends on the forward pointers of all nodes but the last and on the backward pointers
of all but the first. -/
theorem Linked.congr {l m : ListHeads ι} {nodes : List ι} (h : l.Linked nodes)
    (hnext : ∀ x ∈ nodes.dropLast, m.next x = l.next x)
    (hprev : ∀ x ∈ nodes.tail, m.prev x = l.prev x) : m.Linked nodes := by
  induction nodes with
  | nil => trivial
  | cons x rest ih =>
    cases rest with
    | nil => trivial
    | cons y rest =>
      obtain ⟨hxy, hyx, hrest⟩ := h
      refine ⟨(hnext x (by simp)).trans hxy, (hprev y (by simp)).trans hyx, ih hrest ?_ ?_⟩
      · exact fun z hz => hnext z (List.mem_cons_of_mem _ hz)
      · exact fun z hz => hprev z (List.mem_cons_of_mem _ hz)

/-- A set of nodes that is closed under forward pointers contains the chain from any of its
nodes. -/
theorem Linked.subset_of_closed {l : ListHeads ι} {S : ι → Prop} {x : ι} {rest : List ι}
    (h : l.Linked (x :: rest)) (hclosed : ∀ y, S y → S (l.next y)) (hx : S x) :
    ∀ y ∈ rest, S y := by
  induction rest generalizing x with
  | nil => simp
  | cons y rest ih =>
    obtain ⟨hxy, _, hrest⟩ := h
    have hy : S y := hxy ▸ hclosed x hx
    intro z hz
    rcases List.mem_cons.mp hz with rfl | hz
    · exact hy
    · exact ih hrest hy z hz

/-- An empty list is a head that points at itself. -/
theorem isRing_nil_iff (l : ListHeads ι) (head : ι) :
    l.IsRing head [] ↔ l.next head = head ∧ l.prev head = head := by
  constructor
  · rintro ⟨⟨hnext, hprev, _⟩, _⟩
    exact ⟨hnext, hprev⟩
  · rintro ⟨hnext, hprev⟩
    exact ⟨⟨hnext, hprev, trivial⟩, List.nodup_cons.mpr ⟨List.not_mem_nil, List.nodup_nil⟩⟩

/-- Forward pointers stay on the ring. -/
theorem IsRing.next_mem {l : ListHeads ι} {head x : ι} {members : List ι}
    (h : l.IsRing head members) (hx : x ∈ head :: members) : l.next x ∈ head :: members := by
  obtain ⟨front, back, hsplit⟩ := List.append_of_mem hx
  have hchain : l.Linked (front ++ x :: (back ++ [head])) := by
    have hlinked := h.linked
    rwa [← List.cons_append, hsplit, List.append_assoc, List.cons_append] at hlinked
  have hfrom := ((linked_append l front x _).mp hchain).2
  cases back with
  | nil =>
    rw [hfrom.1]
    exact List.mem_cons_self
  | cons y back =>
    rw [hfrom.1, hsplit]
    simp

/-- A ring that shares a node with another one contains its head. -/
theorem IsRing.head_mem {l : ListHeads ι} {head head' x : ι} {members members' : List ι}
    (h : l.IsRing head members) (h' : l.IsRing head' members') (hx : x ∈ members)
    (hx' : x ∈ members') : head' ∈ head :: members := by
  obtain ⟨front, back, hsplit⟩ := List.append_of_mem hx'
  have hchain : l.Linked ((head' :: front) ++ x :: (back ++ [head'])) := by
    have hlinked := h'.linked
    rwa [hsplit, List.append_assoc, List.cons_append] at hlinked
  have hfrom := ((linked_append l (head' :: front) x _).mp hchain).2
  exact hfrom.subset_of_closed (S := (· ∈ head :: members)) (fun y hy => h.next_mem hy)
    (List.mem_cons_of_mem _ hx) head' (by simp)

/-- The last node of a ring is the one its head points back at. -/
theorem IsRing.prev_head {l : ListHeads ι} {head last : ι} {members front : List ι}
    (h : l.IsRing head members) (hsplit : head :: members = front ++ [last]) :
    l.prev head = last ∧ l.Linked (front ++ [last]) := by
  have hlinked := h.linked
  rw [← List.cons_append, hsplit, List.append_assoc, List.singleton_append, linked_append] at hlinked
  exact ⟨hlinked.2.2.1, hlinked.1⟩

variable [DecidableEq ι]

/-- Appending a node that is not on the ring makes it the last member. -/
theorem IsRing.addTail {l : ListHeads ι} {head new : ι} {members : List ι}
    (h : l.IsRing head members) (hnew : new ∉ head :: members) :
    (l.listAddTail new head).IsRing head (members ++ [new]) := by
  obtain ⟨front, last, hsplit⟩ : ∃ front last, head :: members = front ++ [last] :=
    ⟨_, _, (List.dropLast_append_getLast (List.cons_ne_nil head members)).symm⟩
  obtain ⟨hlast, hfront⟩ := h.prev_head hsplit
  have hnodup := h.nodup
  have hhead : head ≠ new := fun heq => hnew (heq ▸ List.mem_cons_self)
  have hmember : ∀ x ∈ members, x ≠ head ∧ x ≠ new := fun x hx =>
    ⟨fun heq => (List.nodup_cons.mp hnodup).1 (heq ▸ hx),
      fun heq => hnew (heq ▸ List.mem_cons_of_mem _ hx)⟩
  have hold : ∀ x ∈ front, x ≠ last ∧ x ≠ new := by
    intro x hx
    have hmem : x ∈ head :: members := hsplit ▸ List.mem_append_left _ hx
    rw [hsplit, List.nodup_append] at hnodup
    exact ⟨hnodup.2.2 x hx last List.mem_cons_self, fun heq => hnew (heq ▸ hmem)⟩
  have hlastnew : last ≠ new := fun heq => hnew (by rw [hsplit, heq]; simp)
  constructor
  · rw [← List.cons_append, ← List.cons_append, hsplit, List.append_assoc, List.append_assoc,
      List.singleton_append, List.singleton_append, linked_append]
    refine ⟨hfront.congr ?_ ?_, ?_, ?_, ?_, ?_, trivial⟩
    · intro x hx
      obtain ⟨hxlast, hxnew⟩ := hold x (by simpa using hx)
      simp [listAddTail, listInsert, hlast, hxlast, hxnew]
    · intro x hx
      rw [← hsplit, List.tail_cons] at hx
      obtain ⟨hxhead, hxnew⟩ := hmember x hx
      simp [listAddTail, listInsert, hxhead, hxnew]
    · simp [listAddTail, listInsert, hlast]
    · simp [listAddTail, listInsert, hlast]
    · simp [listAddTail, listInsert, hlast, Ne.symm hlastnew]
    · simp [listAddTail, listInsert, hhead]
  · rw [← List.cons_append]
    refine List.nodup_append.mpr ⟨hnodup, List.nodup_cons.mpr ⟨List.not_mem_nil, List.nodup_nil⟩, ?_⟩
    rintro x hx y hy rfl
    exact hnew (List.mem_singleton.mp hy ▸ hx)

/-- On a ring the search ends behind the last member and finds exactly the members. -/
theorem IsRing.find {l : ListHeads ι} {head entry : ι} {members : List ι}
    (h : l.IsRing head members) {fuel : ℕ} (hfuel : members.length < fuel) :
    l.listFind head entry fuel (l.next head) = some (decide (entry ∈ members)) := by
  have hfrom : ∀ (rest : List ι) (x : ι) (fuel : ℕ), l.Linked (x :: (rest ++ [head])) →
      head ∉ rest → rest.length < fuel →
      l.listFind head entry fuel (l.next x) = some (decide (entry ∈ rest)) := by
    intro rest
    induction rest with
    | nil =>
      rintro x fuel ⟨hnext, _⟩ _ hlt
      obtain ⟨n, rfl⟩ := Nat.exists_eq_add_of_lt hlt
      simp [listFind, hnext]
    | cons y rest ih =>
      rintro x fuel ⟨hnext, _, hrest⟩ hhead hlt
      obtain ⟨n, rfl⟩ := Nat.exists_eq_add_of_lt hlt
      have hy : y ≠ head := fun heq => hhead (heq ▸ List.mem_cons_self)
      rw [hnext, listFind, if_neg hy]
      by_cases hye : y = entry
      · simp [hye]
      · rw [if_neg hye, ih y _ hrest (fun hmem => hhead (List.mem_cons_of_mem _ hmem)) (by
          simp only [List.length_cons]; omega)]
        simp [Ne.symm hye]
  exact hfrom members head fuel h.linked (List.nodup_cons.mp h.nodup).1 hfuel

end ListHeads

end LinuxFunctionTest
