import LuvFlicker.Ws.Subscriptions

/-!
# The subscription index is exact

Every subscribed slot is on one chain, the chain of the bucket that its order
occupies, and a bucket is occupied as long as its chain has a slot.
-/

namespace LuvFlicker.Ws

open IndexList Probe Function List SubscriptionBucket Fintype

inductive BucketKey where
  | empty
  | tombstone
  | order (orderId : UInt64)
  deriving DecidableEq

def BucketKey.IsOrder : BucketKey → Prop
  | .order _ => True
  | .empty => False
  | .tombstone => False

theorem isOrder_order {orderId : UInt64} : BucketKey.IsOrder (.order orderId) := trivial

def SubscriptionBucket.key (bucket : SubscriptionBucket) : BucketKey :=
  match bucket.state with
  | .empty => .empty
  | .tombstone => .tombstone
  | .occupied => .order bucket.orderId

def BucketKey.hash : BucketKey → Nat
  | .order orderId => subscriptionHash orderId
  | .empty => 0
  | .tombstone => 0

theorem BucketKey.hash_lt (key : BucketKey) : key.hash < kSubscriptionBuckets := by
  cases key with
  | empty | tombstone => decide
  | order orderId => exact Nat.and_lt_two_pow _ (by decide : kSubscriptionBuckets - 1 < 2 ^ 11)

def subscriptionLayout : Layout BucketKey where
  cap := kSubscriptionBuckets
  bits := 11
  cap_eq := by decide
  hash := BucketKey.hash
  hash_lt := BucketKey.hash_lt
  empty := .empty
  limit := kSubscriptionBuckets
  limit_le := Nat.le_refl _

namespace SubscriptionBucket

variable (bucket : SubscriptionBucket)

theorem key_eq_empty_iff : bucket.key = .empty ↔ bucket.state = .empty := by
  rw [key]
  cases bucket.state <;> simp

theorem key_eq_tombstone_iff : bucket.key = .tombstone ↔ bucket.state = .tombstone := by
  rw [key]
  cases bucket.state <;> simp

theorem key_eq_order_iff {orderId : UInt64} :
    bucket.key = .order orderId ↔ bucket.state = .occupied ∧ bucket.orderId = orderId := by
  rw [key]
  cases bucket.state <;> simp

theorem state_eq_occupied {bucket : SubscriptionBucket} (hEmpty : bucket.key ≠ .empty)
    (hTombstone : bucket.key ≠ .tombstone) : bucket.state = .occupied := by
  cases hState : bucket.state with
  | empty => exact absurd (bucket.key_eq_empty_iff.mpr hState) hEmpty
  | tombstone => exact absurd (bucket.key_eq_tombstone_iff.mpr hState) hTombstone
  | occupied => rfl

end SubscriptionBucket

namespace Pool

variable (p : Pool)

def keys (index : Nat) : BucketKey := (p.subscriptions index).key

theorem findSubscription_eq (orderId : UInt64) :
    p.findSubscription orderId = subscriptionLayout.find p.keys (.order orderId) := by
  have hVisit (index : Nat) : (if (p.subscriptions index).state = .empty then some none
        else if (p.subscriptions index).state = .occupied ∧ (p.subscriptions index).orderId = orderId then
          some (some index)
        else none) =
      (if p.keys index = .order orderId then some (some index)
        else if p.keys index = .empty then some none
        else none) := by
    simp only [keys, key_eq_order_iff, key_eq_empty_iff]
    cases (p.subscriptions index).state <;> simp
  rw [findSubscription]
  simp only [hVisit]
  rfl

theorem findOrCreateLoop_eq (orderId : UInt64) (n index : Nat) (first : Option Nat) :
    p.findOrCreateLoop orderId n index first =
      subscriptionLayout.claim .tombstone p.keys (.order orderId) n index first := by
  induction n generalizing index first with
  | zero => rfl
  | succ n ih =>
    rw [findOrCreateLoop, Layout.claim, ih, ih]
    have hEmpty : p.keys index = subscriptionLayout.empty ↔ (p.subscriptions index).state = .empty := key_eq_empty_iff _
    have hTombstone : p.keys index = .tombstone ↔ (p.subscriptions index).state = .tombstone := key_eq_tombstone_iff _
    have hOrder : p.keys index = .order orderId ↔ (p.subscriptions index).state = .occupied ∧
        (p.subscriptions index).orderId = orderId := key_eq_order_iff _
    simp only [hEmpty, hTombstone, hOrder]
    cases (p.subscriptions index).state <;> simp <;> rfl

structure Indexed (p : Pool) (chains : Nat → List Nat) : Prop where
  table : subscriptionLayout.Wf BucketKey.IsOrder p.keys
  linked : ∀ index, Linked p.next p.prev (p.subscriptions index).head (chains index)
  mem : ∀ index slot, slot ∈ chains index ↔ p.bucket slot = some index
  occupied : ∀ index, (p.subscriptions index).state = .occupied ↔ chains index ≠ []
  order : ∀ index, ∀ slot ∈ chains index, (p.sessions slot).connection.orderId = (p.subscriptions index).orderId
  inTable : ∀ slot index, p.bucket slot = some index → index < kSubscriptionBuckets

variable {p} {chains : Nat → List Nat}

theorem Indexed.find_iff (h : p.Indexed chains) (orderId : UInt64) (index : Nat) :
    p.findSubscription orderId = some index ↔ index < kSubscriptionBuckets ∧ p.keys index = .order orderId := by
  rw [findSubscription_eq]
  exact h.table.find_iff isOrder_order _

variable {slot index : Nat}

theorem Indexed.notMem (h : p.Indexed chains) (hBucket : p.bucket slot = none) (index : Nat) : slot ∉ chains index := by
  rw [h.mem, hBucket]
  exact nofun

theorem Indexed.exists_free (h : p.Indexed chains) {maxConnections : Nat} (hMax : maxConnections ≤ kMaxConnections)
    (hSlots : ∀ slot index, p.bucket slot = some index → slot < maxConnections) :
    ∃ index < kSubscriptionBuckets, chains index = [] := by
  by_contra hNone
  have hFirst (index : Fin kSubscriptionBuckets) : ∃ slot : Fin maxConnections, p.bucket slot = some index.val := by
    cases hChain : chains index.val with
    | nil => exact absurd ⟨_, index.isLt, hChain⟩ hNone
    | cons slot rest =>
      have hBucket := (h.mem _ slot).mp (hChain ▸ mem_cons_self)
      exact ⟨⟨slot, hSlots slot _ hBucket⟩, hBucket⟩
  choose first hFirst using hFirst
  have hInjective : Injective first := by
    intro a b hEq
    have hSame := (hFirst a).symm.trans (hEq ▸ hFirst b)
    exact Fin.ext (Option.some.inj hSame)
  have hCard := card_le_of_injective first hInjective
  rw [card_fin, card_fin] at hCard
  change 2048 ≤ maxConnections at hCard
  change maxConnections ≤ 1000 at hMax
  omega

structure Claimed (p p' : Pool) (orderId : UInt64) (index : Nat) : Prop where
  index_lt : index < kSubscriptionBuckets
  sessions : p'.sessions = p.sessions
  bucket : p'.bucket = p.bucket
  prev : p'.prev = p.prev
  next : p'.next = p.next
  here : p'.subscriptions index = { orderId := orderId, head := (p.subscriptions index).head, state := .occupied }
  other : ∀ b, b ≠ index → p'.subscriptions b = p.subscriptions b
  same : (p.subscriptions index).state = .occupied → (p.subscriptions index).orderId = orderId
  table : subscriptionLayout.Wf BucketKey.IsOrder p'.keys

section

variable (h : p.Indexed chains)

include h

variable {orderId : UInt64}

theorem Indexed.claimed_free {d : Nat}
    (hd : d < kSubscriptionBuckets) (hOpen : subscriptionLayout.Open p.keys (.order orderId) d)
    (hFree : (p.subscriptions (subscriptionLayout.cell (.order orderId) d)).state ≠ .occupied)
    (hAbsent : subscriptionLayout.find p.keys (.order orderId) = none) : Claimed p
      (p.setSubscription (subscriptionLayout.cell (.order orderId) d) { orderId := orderId, state := .occupied }) orderId
      (subscriptionLayout.cell (.order orderId) d) := by
  have hChain : chains (subscriptionLayout.cell (.order orderId) d) = [] := by
    by_contra hSome
    exact hFree ((h.occupied _).mpr hSome)
  have hHead : (p.subscriptions (subscriptionLayout.cell (.order orderId) d)).head = none := by
    rw [(h.linked _).head_eq, hChain]
    rfl
  have hKeys : (p.setSubscription (subscriptionLayout.cell (.order orderId) d)
      { orderId := orderId, state := .occupied }).keys =
      update p.keys (subscriptionLayout.cell (.order orderId) d) (.order orderId) := by
    funext b
    rw [keys, setSubscription]
    dsimp only
    rcases eq_or_ne b (subscriptionLayout.cell (.order orderId) d) with rfl | hb
    · rw [update_self, update_self]
      rfl
    · rw [update_of_ne hb, update_of_ne hb, keys]
  refine ⟨subscriptionLayout.cell_lt _ d, rfl, rfl, rfl, rfl, ?_, fun b hb => update_of_ne hb _ _,
    fun hState => absurd hState hFree, ?_⟩
  · rw [hHead]
    exact update_self ..
  · rw [hKeys]
    have hAbsent := (h.table.find_eq_none_iff isOrder_order).mp hAbsent
    exact h.table.place (show BucketKey.order orderId ≠ _ from nofun) hAbsent hd hOpen

theorem Indexed.linkFirst {p' : Pool}
    (hClaimed : Claimed p p' (p.sessions slot).connection.orderId index) (hBucket : p.bucket slot = none) :
    (p'.linkFirst index slot).Indexed (update chains index (slot :: chains index)) := by
  have hFresh := h.notMem hBucket
  have hHead : (p'.subscriptions index).head = (p.subscriptions index).head := by rw [hClaimed.here]
  have hHere : (p'.linkFirst index slot).subscriptions index =
      { p'.subscriptions index with head := some slot } := update_self ..
  have hOther {b : Nat} (hb : b ≠ index) : (p'.linkFirst index slot).subscriptions b = p.subscriptions b :=
    (update_of_ne hb _ _).trans (hClaimed.other b hb)
  have hNext : (p'.linkFirst index slot).next = update p.next slot (p.subscriptions index).head := by
    rw [← hHead, ← hClaimed.next]
    rfl
  have hPrev : (p'.linkFirst index slot).prev = pushPrev p.prev (p.subscriptions index).head slot := by
    rw [← hHead, ← hClaimed.prev]
    rfl
  have hBuckets : (p'.linkFirst index slot).bucket = update p.bucket slot (some index) := by
    rw [← hClaimed.bucket]
    rfl
  have hSessions : (p'.linkFirst index slot).sessions = p.sessions := hClaimed.sessions
  have hKeys : (p'.linkFirst index slot).keys = p'.keys := by
    funext b
    rcases eq_or_ne b index with rfl | hb
    · rw [keys, hHere]
      rfl
    · rw [keys, hOther hb, ← hClaimed.other b hb]
      rfl
  refine ⟨hKeys ▸ hClaimed.table, fun b => ?_, fun b j => ?_, fun b => ?_, fun b j hj => ?_, fun j b hj => ?_⟩
  · rw [hNext, hPrev]
    rcases eq_or_ne b index with rfl | hb
    · rw [hHere, update_self]
      exact (h.linked b).push (hFresh b)
    rw [hOther hb, update_of_ne hb]
    refine (h.linked b).congr (fun j hj => ?_) fun j hj => ?_
    · exact update_of_ne (ne_of_mem_of_not_mem hj (hFresh b)) _ _
    apply (h.linked _).pushPrev_of_notMem _ (ne_of_mem_of_not_mem hj (hFresh b))
    rw [h.mem, (h.mem b j).mp hj]
    exact fun hSame => hb (Option.some.inj hSame)
  · rw [hBuckets]
    rcases eq_or_ne b index with rfl | hb
    · rw [update_self, mem_cons]
      rcases eq_or_ne j slot with rfl | hj
      · rw [update_self]
        exact iff_of_true (.inl rfl) rfl
      · rw [update_of_ne hj, h.mem]
        exact or_iff_right hj
    · rw [update_of_ne hb]
      rcases eq_or_ne j slot with rfl | hj
      · rw [update_self]
        exact iff_of_false (hFresh b) fun hSame => hb (Option.some.inj hSame).symm
      · rw [update_of_ne hj, h.mem]
  · rcases eq_or_ne b index with rfl | hb
    · rw [hHere, update_self, hClaimed.here]
      exact iff_of_true rfl (cons_ne_nil _ _)
    · rw [hOther hb, update_of_ne hb, h.occupied]
  · rw [hSessions]
    rcases eq_or_ne b index with rfl | hb
    · rw [update_self, mem_cons] at hj
      rw [hHere, hClaimed.here]
      rcases hj with rfl | hj
      · rfl
      · have hState := (h.occupied b).mpr (ne_nil_of_mem hj)
        exact (h.order b j hj).trans (hClaimed.same hState)
    · rw [update_of_ne hb] at hj
      rw [hOther hb]
      exact h.order b j hj
  · rw [hBuckets] at hj
    rcases eq_or_ne j slot with rfl | hjs
    · rw [update_self] at hj
      cases hj
      exact hClaimed.index_lt
    · rw [update_of_ne hjs] at hj
      exact h.inTable j b hj

section

variable (hFree : ∃ index < kSubscriptionBuckets, chains index = [])
include hFree

theorem Indexed.findOrCreate (orderId : UInt64) :
    ∃ index p', p.findOrCreateSubscription orderId = (some index, p') ∧ Claimed p p' orderId index := by
  have hClaims := @Layout.claims _ _ subscriptionLayout p.keys (.order orderId) .tombstone nofun nofun nofun
  have hLoop := p.findOrCreateLoop_eq orderId kSubscriptionBuckets (subscriptionHash orderId) none
  rw [findOrCreateSubscription, hLoop]
  change subscriptionLayout.Claims .tombstone p.keys (.order orderId)
    (subscriptionLayout.claim .tombstone p.keys (.order orderId) kSubscriptionBuckets (subscriptionHash orderId) none)
    at hClaims
  generalize subscriptionLayout.claim .tombstone p.keys (.order orderId) kSubscriptionBuckets
    (subscriptionHash orderId) none = result at hClaims
  cases hClaims with
  | @held index hFind =>
    obtain ⟨hIndex, hKey⟩ := subscriptionLayout.find_lt hFind
    obtain ⟨hState, hOrder⟩ := (key_eq_order_iff _).mp hKey
    refine ⟨_, p, ?_, hIndex, rfl, rfl, rfl, rfl, ?_, fun _ _ => rfl, fun _ => hOrder, h.table⟩
    · dsimp only
      rw [if_pos hState]
    · rw [← hOrder, ← hState]
  | @free d hd hOpen hCell hAbsent =>
    have hState : (p.subscriptions (subscriptionLayout.cell (.order orderId) d)).state ≠ .occupied := by
      rcases hCell with hEmpty | hTombstone
      · rw [(key_eq_empty_iff _).mp hEmpty]
        exact nofun
      · rw [(key_eq_tombstone_iff _).mp hTombstone]
        exact nofun
    refine ⟨_, _, ?_, h.claimed_free hd hOpen hState hAbsent⟩
    dsimp only
    rw [if_neg hState]
  | full hFull =>
    obtain ⟨index, hIndex, hChain⟩ := hFree
    obtain ⟨d, hd, rfl⟩ := subscriptionLayout.exists_cell (.order orderId) hIndex
    obtain ⟨hEmpty, hTombstone⟩ := hFull d hd
    exact absurd hChain ((h.occupied _).mp (state_eq_occupied hEmpty hTombstone))

theorem Indexed.subscribe (hBucket : p.bucket slot = none) : ∃ index p', p.subscribe slot = (true, p') ∧
      p'.Indexed (update chains index (slot :: chains index)) ∧
      p'.sessions = p.sessions ∧ p'.bucket = update p.bucket slot (some index) := by
  obtain ⟨index, p', hCreate, hClaimed⟩ := h.findOrCreate hFree _
  refine ⟨_, _, ?_, h.linkFirst hClaimed hBucket, hClaimed.sessions, ?_⟩
  · rw [Pool.subscribe, hCreate]
  · rw [← hClaimed.bucket]
    rfl

end

end

/-! ## Leaving a chain -/

theorem Indexed.bucketWithout (h : p.Indexed chains) (hMem : slot ∈ chains index) : p.bucketWithout index slot =
      { orderId := (p.subscriptions index).orderId
        head := unlinkHead p.next p.prev (p.subscriptions index).head slot
        state := if (chains index).erase slot = [] then .tombstone else .occupied } := by
  have hHead : (if (p.prev slot).isNone ∧ (p.subscriptions index).head = some slot then p.next slot
      else (p.subscriptions index).head) = unlinkHead p.next p.prev (p.subscriptions index).head slot := by
    rw [unlinkHead]
    cases hPrev : p.prev slot with
    | none => exact if_pos ⟨rfl, (h.linked _).head_of_prev hMem hPrev⟩
    | some q => exact if_neg fun hBoth => Bool.noConfusion hBoth.1
  have hRest := ((h.linked _).unlink_erase hMem).head_eq
  rw [Pool.bucketWithout, hHead, hRest]
  cases (chains index).erase slot with
  | nil => rfl
  | cons first rest =>
    have hState := (h.occupied _).mpr (ne_nil_of_mem hMem)
    simp [hState]

theorem Indexed.keys_unsubscribe (h : p.Indexed chains) (hBucket : p.bucket slot = some index) :
    (p.unsubscribe slot).keys =
      update p.keys index (if (chains index).erase slot = [] then .tombstone else p.keys index) := by
  have hMem := (h.mem index slot).mpr hBucket
  funext b
  rw [keys, Pool.unsubscribe, hBucket]
  dsimp only
  rcases eq_or_ne b index with rfl | hb
  · rw [update_self, update_self, h.bucketWithout hMem]
    have hKey := (key_eq_order_iff _).mpr ⟨(h.occupied b).mpr (ne_nil_of_mem hMem), rfl⟩
    rw [keys, hKey]
    split
    · rfl
    · rfl
  · rw [update_of_ne hb, update_of_ne hb, keys]

theorem Indexed.unsubscribe (h : p.Indexed chains) (slot : Nat) :
    (p.unsubscribe slot).Indexed fun b => (chains b).erase slot := by
  cases hBucket : p.bucket slot with
  | none =>
    have hSame : (fun b => (chains b).erase slot) = chains := funext fun b => erase_of_not_mem (h.notMem hBucket b)
    rw [Pool.unsubscribe, hBucket, hSame]
    exact h
  | some index =>
    have hMem := (h.mem _ slot).mpr hBucket
    have hApart {b : Nat} (hb : b ≠ index) {j : Nat} (hj : j ∈ chains b) : j ∉ chains index := by
      rw [h.mem, (h.mem b j).mp hj]
      exact fun hSame => hb (Option.some.inj hSame)
    have hSame {b : Nat} (hb : b ≠ index) : (chains b).erase slot = chains b :=
      erase_of_not_mem fun hj => hApart hb hj hMem
    have hKeys := h.keys_unsubscribe hBucket
    have hBuckets : (p.unsubscribe slot).bucket = update p.bucket slot none := by rw [Pool.unsubscribe, hBucket]
    have hHere : (p.unsubscribe slot).subscriptions index = p.bucketWithout index slot := by
      rw [Pool.unsubscribe, hBucket]
      exact update_self ..
    have hOther {b : Nat} (hb : b ≠ index) : (p.unsubscribe slot).subscriptions b = p.subscriptions b := by
      rw [Pool.unsubscribe, hBucket]
      exact update_of_ne hb _ _
    have hNext : (p.unsubscribe slot).next = unlinkNext p.next p.prev slot := by rw [Pool.unsubscribe, hBucket]
    have hPrev : (p.unsubscribe slot).prev = unlinkPrev p.next p.prev slot := by rw [Pool.unsubscribe, hBucket]
    have hSessions : (p.unsubscribe slot).sessions = p.sessions := by rw [Pool.unsubscribe, hBucket]
    rw [h.bucketWithout hMem] at hHere
    refine ⟨?_, fun b => ?_, fun b j => ?_, fun b => ?_, fun b j hj => ?_, fun j b hj => ?_⟩
    · rw [hKeys]
      split
      · have hMarker : BucketKey.tombstone ≠ subscriptionLayout.empty := nofun
        exact h.table.mark hMarker id _
      · rw [update_eq_self]
        exact h.table
    · rw [hNext, hPrev]
      rcases eq_or_ne b index with rfl | hb
      · rw [hHere]
        exact (h.linked b).unlink_erase hMem
      · rw [hOther hb, hSame hb]
        exact (h.linked b).congr (fun j hj => (h.linked index).unlinkNext_of_notMem hMem (hApart hb hj))
          fun j hj => (h.linked index).unlinkPrev_of_notMem hMem (hApart hb hj)
    · rw [hBuckets, (h.linked b).1.mem_erase_iff, h.mem]
      rcases eq_or_ne j slot with rfl | hj
      · rw [update_self]
        exact iff_of_false (fun hBoth => hBoth.1 rfl) nofun
      · rw [update_of_ne hj]
        exact and_iff_right hj
    · rcases eq_or_ne b index with rfl | hb
      · rw [hHere]
        split
        next hEmpty => exact iff_of_false nofun (not_not.mpr hEmpty)
        next hRest => exact iff_of_true rfl hRest
      · rw [hOther hb, hSame hb, h.occupied]
    · have hOrder := h.order b j (mem_of_mem_erase hj)
      rw [hSessions, hOrder]
      rcases eq_or_ne b index with rfl | hb
      · rw [hHere]
      · rw [hOther hb]
    · rw [hBuckets] at hj
      rcases eq_or_ne j slot with rfl | hjs
      · rw [update_self] at hj
        cases hj
      · rw [update_of_ne hjs] at hj
        exact h.inTable j b hj

theorem Indexed.setSession (h : p.Indexed chains) {s : Session}
    (hOrder : p.bucket slot ≠ none → s.connection.orderId = (p.sessions slot).connection.orderId) :
    { p with sessions := update p.sessions slot s }.Indexed chains where
  table := h.table
  linked := h.linked
  mem := h.mem
  occupied := h.occupied
  order index j hj := by
    rw [← h.order index j hj]
    dsimp only
    rcases eq_or_ne j slot with rfl | hjs
    · rw [update_self]
      apply hOrder
      rw [(h.mem _ j).mp hj]
      exact nofun
    · rw [update_of_ne hjs]
  inTable := h.inTable

end Pool

end LuvFlicker.Ws
