import Madoka.Lib.Run
import Madoka.Network.Routing

/-!
# Freshness

Which advertisements a receiver takes (`distance_vector_update` with a
`RouteOriginStates` map): the ones that are above all it has taken from their
sender, whatever order they come in.
-/

namespace Madoka

open Octets

/-- The order of an originator's advertisements: generation first, then
sequence number. -/
def RouteAdvertisement.Before (older newer : RouteAdvertisement) : Prop :=
  older.generation < newer.generation
    ∨ older.generation = newer.generation ∧ older.sequenceNumber < newer.sequenceNumber

theorem RouteAdvertisement.Before.trans {a b c : RouteAdvertisement} (h : a.Before b)
    (h' : b.Before c) : a.Before c := by
  rcases h with h | ⟨h, hs⟩
  · rcases h' with h' | ⟨h', -⟩
    · exact .inl (UInt64.lt_trans h h')
    · exact .inl (h' ▸ h)
  · rcases h' with h' | ⟨h', hs'⟩
    · exact .inl (h ▸ h')
    · exact .inr ⟨h.trans h', UInt64.lt_trans hs hs'⟩

/-! ## A receiver -/

/-- An advertisement as it reaches the receiver, from the neighbour that is
its sender. -/
structure Delivery where
  advertisement : RouteAdvertisement
  currentTime : Nat
  linkCost : Nat

/-- The table and the map, with the advertisements that were accepted. -/
structure Receiver where
  table : RouteTable
  origins : RouteOriginStates
  accepted : List RouteAdvertisement

def Receiver.update (receiver : Receiver) (delivery : Delivery) : UpdateResult :=
  distanceVectorUpdate receiver.table delivery.advertisement.sender delivery.advertisement
    delivery.currentTime delivery.linkCost (some receiver.origins)

def Receiver.deliver (receiver : Receiver) (delivery : Delivery) : Receiver :=
  let result := receiver.update delivery
  { table := result.table
    origins := result.originStates.getD ∅
    accepted :=
      if result.accepted then delivery.advertisement :: receiver.accepted else receiver.accepted }

def Receiver.start (table : RouteTable) : Receiver where
  table := table
  origins := ∅
  accepted := []

/-- Nothing of the receiver's routing state has changed. -/
def Receiver.Unchanged (receiver : Receiver) (result : UpdateResult) : Prop :=
  result.table = receiver.table ∧ result.originStates = some receiver.origins

theorem Receiver.update_accepted (receiver : Receiver) (delivery : Delivery) :
    (receiver.update delivery).accepted
      = advertisementFresh receiver.origins delivery.advertisement := by
  unfold Receiver.update distanceVectorUpdate
  cases hfresh : advertisementFresh receiver.origins delivery.advertisement with
  | false => rw [if_pos (by simp [hfresh])]
  | true => rw [if_neg (by simp [hfresh])]

/-- A refused advertisement changes neither the table nor the map. -/
theorem Receiver.update_refused {receiver : Receiver} {delivery : Delivery}
    (h : (receiver.update delivery).accepted = false) :
    receiver.Unchanged (receiver.update delivery) := by
  rw [update_accepted] at h
  unfold Receiver.update distanceVectorUpdate
  rw [if_pos (by simp [h])]
  exact ⟨rfl, rfl⟩

theorem Receiver.update_origins {receiver : Receiver} {delivery : Delivery}
    (h : (receiver.update delivery).accepted = true) :
    (receiver.update delivery).originStates
      = some (receiver.origins.insert delivery.advertisement.sender
          { generation := delivery.advertisement.generation
            sequence := delivery.advertisement.sequenceNumber }) := by
  rw [update_accepted] at h
  unfold Receiver.update distanceVectorUpdate
  rw [if_neg (by simp [h])]
  rfl

/-! ## What the map remembers -/

/-- The map holds, for each sender, the newest advertisement accepted. -/
def Receiver.Remembers (receiver : Receiver) : Prop :=
  ∀ sender,
    (receiver.origins.lookup sender = none ∧ ∀ a ∈ receiver.accepted, a.sender ≠ sender)
      ∨ ∃ newest ∈ receiver.accepted, newest.sender = sender
          ∧ receiver.origins.lookup sender
            = some { generation := newest.generation, sequence := newest.sequenceNumber }
          ∧ ∀ a ∈ receiver.accepted, a.sender = sender → a = newest ∨ a.Before newest

theorem before_iff_not {last candidate : RouteAdvertisement} :
    last.Before candidate ↔ ¬ (candidate.generation < last.generation
      ∨ candidate.generation = last.generation
        ∧ candidate.sequenceNumber ≤ last.sequenceNumber) := by
  unfold RouteAdvertisement.Before
  simp only [UInt64.lt_iff_toNat_lt, UInt64.le_iff_toNat_le, ← UInt64.toNat_inj]
  omega

/-- An advertisement is accepted exactly when it is above every one accepted
so far from its sender. -/
theorem Receiver.Remembers.accepts_iff {receiver : Receiver} (h : receiver.Remembers)
    (delivery : Delivery) :
    (receiver.update delivery).accepted = true
      ↔ ∀ a ∈ receiver.accepted, a.sender = delivery.advertisement.sender →
          a.Before delivery.advertisement := by
  rw [update_accepted, advertisementFresh]
  rcases h delivery.advertisement.sender with ⟨hnone, hothers⟩ | ⟨newest, hmem, hsender, hsome, hall⟩
  · rw [hnone]
    constructor
    · intro _ a ha heq
      exact absurd heq (hothers a ha)
    · intro _
      rfl
  · rw [hsome]
    have hfresh : (!decide (delivery.advertisement.generation < newest.generation
        ∨ delivery.advertisement.generation = newest.generation
          ∧ delivery.advertisement.sequenceNumber ≤ newest.sequenceNumber)) = true
        ↔ newest.Before delivery.advertisement := by
      rw [before_iff_not, Bool.not_eq_true', decide_eq_false_iff_not]
    refine hfresh.trans ⟨fun hnewest a ha heq => ?_, fun hbefore => hbefore newest hmem hsender⟩
    rcases hall a ha heq with rfl | hbefore
    · exact hnewest
    · exact hbefore.trans hnewest

theorem Receiver.remembers_start (table : RouteTable) : (Receiver.start table).Remembers := by
  intro sender
  refine .inl ⟨rfl, fun a ha => ?_⟩
  exact absurd ha List.not_mem_nil

theorem Receiver.Remembers.deliver {receiver : Receiver} (h : receiver.Remembers)
    (delivery : Delivery) : (receiver.deliver delivery).Remembers := by
  cases haccepted : (receiver.update delivery).accepted with
  | false =>
      obtain ⟨htable, horigins⟩ := update_refused haccepted
      have hsame : receiver.deliver delivery = receiver := by
        unfold Receiver.deliver
        simp only [haccepted, htable, horigins, Bool.false_eq_true, if_false, Option.getD_some]
      rw [hsame]
      exact h
  | true =>
      have hbefore := (h.accepts_iff delivery).mp haccepted
      have horigins : (receiver.deliver delivery).origins
          = receiver.origins.insert delivery.advertisement.sender
              { generation := delivery.advertisement.generation
                sequence := delivery.advertisement.sequenceNumber } := by
        show (receiver.update delivery).originStates.getD ∅ = _
        rw [update_origins haccepted]
        rfl
      have hlist : (receiver.deliver delivery).accepted
          = delivery.advertisement :: receiver.accepted := by
        show (if (receiver.update delivery).accepted then _ else _) = _
        rw [haccepted]
        rfl
      intro sender
      rw [horigins, hlist]
      by_cases hsender : sender = delivery.advertisement.sender
      · -- the new one is the newest of its sender
        subst hsender
        refine .inr ⟨_, List.mem_cons_self, rfl, AList.lookup_insert _, fun a ha heq => ?_⟩
        rcases List.mem_cons.mp ha with rfl | ha
        · exact .inl rfl
        · exact .inr (hbefore a ha heq)
      · rw [AList.lookup_insert_ne hsender]
        rcases h sender with ⟨hnone, hothers⟩ | ⟨newest, hmem, hnewest, hsome, hall⟩
        · refine .inl ⟨hnone, fun a ha heq => ?_⟩
          rcases List.mem_cons.mp ha with rfl | ha
          · exact hsender heq.symm
          · exact hothers a ha heq
        · refine .inr ⟨newest, List.mem_cons_of_mem _ hmem, hnewest, hsome, fun a ha heq => ?_⟩
          rcases List.mem_cons.mp ha with rfl | ha
          · exact absurd heq.symm hsender
          · exact hall a ha heq

def Receiver.afterAll (table : RouteTable) (deliveries : List Delivery) : Receiver :=
  Run.final Receiver.deliver (.start table) deliveries

theorem Receiver.remembers_afterAll (table : RouteTable) (deliveries : List Delivery) :
    (Receiver.afterAll table deliveries).Remembers := by
  have hstep : ∀ (receiver : Receiver) (delivery : Delivery), receiver.Remembers →
      (receiver.deliver delivery).Remembers := fun _ delivery h => h.deliver delivery
  exact (Run.throughout_of_step hstep (remembers_start table) deliveries).final

theorem Receiver.accepted_deliver {receiver : Receiver} {delivery : Delivery}
    {a : RouteAdvertisement} (h : a ∈ (receiver.deliver delivery).accepted) :
    a = delivery.advertisement ∨ a ∈ receiver.accepted := by
  have hlist : (receiver.deliver delivery).accepted
      = if (receiver.update delivery).accepted then delivery.advertisement :: receiver.accepted
        else receiver.accepted := rfl
  rw [hlist] at h
  split_ifs at h
  · exact List.mem_cons.mp h
  · exact .inr h

/-- Only what was delivered is accepted. -/
theorem Receiver.mem_accepted {table : RouteTable} {deliveries : List Delivery}
    {a : RouteAdvertisement} (h : a ∈ (Receiver.afterAll table deliveries).accepted) :
    ∃ delivery ∈ deliveries, delivery.advertisement = a := by
  have hgeneral : ∀ (deliveries : List Delivery) (receiver : Receiver),
      a ∈ (Run.final Receiver.deliver receiver deliveries).accepted →
      a ∈ receiver.accepted ∨ ∃ delivery ∈ deliveries, delivery.advertisement = a := by
    intro deliveries
    induction deliveries with
    | nil =>
        intro receiver h
        exact .inl h
    | cons delivery rest ih =>
        intro receiver h
        rcases ih _ h with hmem | ⟨other, hother, heq⟩
        · rcases accepted_deliver hmem with rfl | hmem
          · exact .inr ⟨delivery, List.mem_cons_self, rfl⟩
          · exact .inl hmem
        · exact .inr ⟨other, List.mem_cons_of_mem _ hother, heq⟩
  rcases hgeneral deliveries _ h with hmem | hdelivered
  · exact absurd hmem List.not_mem_nil
  · exact hdelivered

end Madoka
