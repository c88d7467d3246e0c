import LuvFlicker.Ws.Closing
import LuvFlicker.Ws.Index

/-!
# The fan-out reaches exactly the subscribers of an order

The slots in use are the slots on chains, whatever the worker does to its
connections.
-/

namespace LuvFlicker.Ws

open Bytes IndexList Run Function List Ws.Session SubscriptionBucket Option

namespace Session

variable {s s' : Session}

def Stays (s s' : Session) : Prop :=
  s'.connection.isOpen = true → s.connection.isOpen = true ∧ s'.connection.orderId = s.connection.orderId

theorem Stays.refl (s : Session) : Stays s s := fun hOpen => ⟨hOpen, rfl⟩

theorem Stays.trans {s'' : Session} (h : Stays s s') (h' : Stays s' s'') : Stays s s'' := by
  intro hOpen
  obtain ⟨hMiddle, hOrder'⟩ := h' hOpen
  obtain ⟨hBefore, hOrder⟩ := h hMiddle
  exact ⟨hBefore, hOrder'.trans hOrder⟩

theorem Keeps.stays (h : Keeps s s') : Stays s s' := fun hOpen => ⟨(h.flag hOpen).1, h.order hOpen⟩

theorem Sends.stays (h : Sends s s') : Stays s s' := by
  cases h with
  | keeps hKeeps => exact hKeeps.stays
  | frame hLive hOpcode hQueued hLive' hOrder => exact fun _ => ⟨hLive.1, hOrder⟩

theorem stays_kept (s : Session) : Kept fun _ s' => Stays s s' where
  turn hLive hStays hTurns hOpen := by
    obtain ⟨hBefore, hOrder⟩ := hStays hLive.1
    exact ⟨hBefore, (hTurns.order hOpen).trans hOrder⟩
  chunk _ hStays := hStays
  interrupted hStays := hStays
  close _ hStays := hStays.trans (keeps_close _).stays

theorem stays_receive (hOpen : s.connection.isOpen = true) (timestampNs : UInt64) (results : List RecvResult) :
    Stays s (s.receive timestampNs results).2 := by
  cases hClosing : s.connection.closeAfterFlush with
  | false =>
    obtain ⟨⟨_, hEnd⟩, -⟩ := (stays_kept s).receivePasses _ 8 _ s ⟨hOpen, hClosing⟩ (.refl s)
    exact hEnd
  | true =>
    rw [receive_of_closing hOpen hClosing]
    exact fun hAfter => ⟨hOpen, (turn_turns hOpen _).order hAfter⟩

theorem stays_ioPass (s : Session) (ready : Readiness) : Stays s (s.ioPass ready) := by
  rw [ioPass]
  split
  next hOpen =>
    have hRead : Stays s (s.readInput ready) := by
      rw [readInput]
      split
      · exact stays_receive hOpen _ _
      · exact .refl s
    exact hRead.trans (keeps_behind_input _).stays
  · exact .refl s

theorem stays_acceptUpgrade (upgrade : Upgrade) (timestampNs receivedNs : UInt64) (results : List RecvResult) :
    Stays (fresh upgrade timestampNs) (acceptUpgrade upgrade timestampNs receivedNs results) := by
  have hUpgraded : Stays (fresh upgrade timestampNs) (upgraded upgrade timestampNs) := by
    rw [upgraded_eq]
    exact fun _ => ⟨rfl, rfl⟩
  rw [acceptUpgrade]
  split
  · exact hUpgraded.trans (stays_receive (live_upgraded _ _).1 _ _)
  · exact hUpgraded

end Session

namespace Pool

variable {p : Pool} {maxConnections : Nat} {chains : Nat → List Nat}

structure Exact (maxConnections : Nat) (p : Pool) (chains : Nat → List Nat) : Prop where
  indexed : p.Indexed chains
  live : ∀ slot, p.bucket slot ≠ none ↔ (p.sessions slot).connection.isOpen = true
  small : ∀ slot, (p.sessions slot).connection.isOpen = true → slot < maxConnections

theorem exact_empty {maxConnections : Nat} : Exact maxConnections {} fun _ => [] where
  indexed :=
    { table := ⟨nofun, nofun⟩
      linked := fun _ => ⟨nodup_nil, none, rfl, rfl⟩
      mem := fun _ _ => iff_of_false not_mem_nil nofun
      occupied := fun _ => iff_of_false nofun (not_not.mpr rfl)
      order := fun _ _ hMem => absurd hMem not_mem_nil
      inTable := nofun }
  live _ := iff_of_false (not_not.mpr rfl) nofun
  small := nofun

section

variable (h : p.Exact maxConnections chains)

include h

theorem Exact.chain {slot : Nat} (hOpen : (p.sessions slot).connection.isOpen = true) :
    ∃ index < kSubscriptionBuckets, p.bucket slot = some index ∧ slot ∈ chains index := by
  obtain ⟨index, hBucket⟩ := ne_none_iff_exists'.mp ((h.live slot).mpr hOpen)
  exact ⟨_, h.indexed.inTable slot _ hBucket, hBucket, (h.indexed.mem _ slot).mpr hBucket⟩

variable {index slot : Nat}

theorem Exact.isOpen (hMem : slot ∈ chains index) : (p.sessions slot).connection.isOpen = true := by
  rw [← h.live, (h.indexed.mem _ slot).mp hMem]
  exact nofun

theorem Exact.keys_iff (hMem : slot ∈ chains index)
    (orderId : UInt64) : p.keys index = .order orderId ↔ (p.sessions slot).connection.orderId = orderId := by
  rw [h.indexed.order _ slot hMem, keys, key_eq_order_iff]
  exact and_iff_right ((h.indexed.occupied _).mpr (ne_nil_of_mem hMem))

theorem Exact.find_isSome_iff (orderId : UInt64) : (p.findSubscription orderId).isSome ↔
      ∃ slot, (p.sessions slot).connection.isOpen = true ∧ (p.sessions slot).connection.orderId = orderId := by
  rw [isSome_iff_exists]
  constructor
  · rintro ⟨index, hFind⟩
    obtain ⟨-, hKey⟩ := (h.indexed.find_iff _ _).mp hFind
    have hOccupied := ((key_eq_order_iff _).mp hKey).1
    obtain ⟨slot, hMem⟩ := exists_mem_of_ne_nil _ ((h.indexed.occupied _).mp hOccupied)
    exact ⟨slot, h.isOpen hMem, (h.keys_iff hMem _).mp hKey⟩
  · rintro ⟨slot, hOpen, hOrder⟩
    obtain ⟨index, hIndex, -, hMem⟩ := h.chain hOpen
    exact ⟨_, (h.indexed.find_iff _ _).mpr ⟨hIndex, (h.keys_iff hMem _).mpr hOrder⟩⟩

theorem Exact.length_le (index : Nat) : (chains index).length ≤ maxConnections := by
  have hRange : chains index ⊆ List.range maxConnections :=
    fun slot hMem => mem_range.mpr (h.small slot (h.isOpen hMem))
  have hLength := (subperm_of_subset (h.indexed.linked _).1 hRange).length_le
  rwa [length_range] at hLength

end

/-! ## Opening and closing slots -/

def chainsAfter (chains : Nat → List Nat) (slot : Nat) (s : Session) (index : Nat) : List Nat :=
  if s.connection.isOpen then chains index else (chains index).erase slot

@[simp]
theorem sessions_put (p : Pool) (slot : Nat) (s : Session) : (p.put slot s).sessions = update p.sessions slot s := by
  rw [put]
  split
  · rfl
  · rfl

theorem bucket_unsubscribe (p : Pool) (slot : Nat) : (p.unsubscribe slot).bucket = update p.bucket slot none := by
  rw [unsubscribe]
  split
  next hNone => rw [← hNone, update_eq_self]
  · rfl

section

variable (h : p.Exact maxConnections chains)

include h

theorem Exact.put {slot : Nat} {s : Session}
    (hStays : (p.sessions slot).Stays s) : (p.put slot s).Exact maxConnections (chainsAfter chains slot s) := by
  have hSmall : ∀ j, ((p.put slot s).sessions j).connection.isOpen = true → j < maxConnections := by
    intro j hOpen
    rw [sessions_put] at hOpen
    rcases eq_or_ne j slot with rfl | hj
    · rw [update_self] at hOpen
      exact h.small j (hStays hOpen).1
    · rw [update_of_ne hj] at hOpen
      exact h.small j hOpen
  cases hOpen : s.connection.isOpen with
  | true =>
    obtain ⟨hBefore, hOrder⟩ := hStays hOpen
    have hPut : p.put slot s = { p with sessions := update p.sessions slot s } := if_pos hOpen
    have hChains : chainsAfter chains slot s = chains := funext fun index => if_pos hOpen
    refine ⟨?_, fun j => ?_, hSmall⟩
    · rw [hPut, hChains]
      exact h.indexed.setSession fun _ => hOrder
    rw [hPut]
    dsimp only
    rcases eq_or_ne j slot with rfl | hj
    · rw [update_self, h.live, hOpen, hBefore]
    · rw [update_of_ne hj, h.live]
  | false =>
    have hNot := Bool.eq_false_iff.mp hOpen
    have hPut : p.put slot s = { p.unsubscribe slot with sessions := update p.sessions slot s } := if_neg hNot
    have hChains : chainsAfter chains slot s = fun index => (chains index).erase slot := funext fun index => if_neg hNot
    have hSessions : (p.unsubscribe slot).sessions = p.sessions := by
      rw [unsubscribe]
      split
      · rfl
      · rfl
    refine ⟨?_, fun j => ?_, hSmall⟩
    · rw [hPut, hChains, ← hSessions]
      apply (h.indexed.unsubscribe slot).setSession
      intro hSome
      rw [bucket_unsubscribe, update_self] at hSome
      exact absurd rfl hSome
    · rw [hPut]
      dsimp only
      rw [bucket_unsubscribe]
      rcases eq_or_ne j slot with rfl | hj
      · rw [update_self, update_self]
        exact iff_of_false (not_not.mpr rfl) hNot
      · rw [update_of_ne hj, update_of_ne hj, h.live]

theorem Exact.subscribe (hMax : maxConnections ≤ kMaxConnections) {slot : Nat}
    (hSlot : slot < maxConnections) (hFree : (p.sessions slot).connection.isOpen = false) {s : Session}
    (hOpen : s.connection.isOpen = true) :
    ∃ p' chains', { p with sessions := update p.sessions slot s }.subscribe slot = (true, p') ∧
      p'.Exact maxConnections chains' ∧ p'.sessions = update p.sessions slot s := by
  have hBucket : p.bucket slot = none := by
    by_contra hSome
    exact Bool.noConfusion (hFree.symm.trans ((h.live slot).mp hSome))
  have hSlots : ∀ j index, p.bucket j = some index → j < maxConnections := by
    intro j index hj
    apply h.small j
    rw [← h.live, hj]
    exact nofun
  have hOpened : { p with sessions := update p.sessions slot s }.Indexed chains :=
    h.indexed.setSession fun hSome => absurd hBucket hSome
  obtain ⟨index, p', hSubscribe, hIndexed, hSessions, hBuckets⟩ :=
    hOpened.subscribe (h.indexed.exists_free hMax hSlots) hBucket
  change p'.sessions = update p.sessions slot s at hSessions
  refine ⟨p', _, hSubscribe, ⟨hIndexed, fun j => ?_, fun j hj => ?_⟩, hSessions⟩
  · rw [hBuckets, hSessions]
    rcases eq_or_ne j slot with rfl | hj
    · rw [update_self, update_self]
      exact iff_of_true nofun hOpen
    · rw [update_of_ne hj, update_of_ne hj, h.live]
  · rw [hSessions] at hj
    rcases eq_or_ne j slot with rfl | hjs
    · exact hSlot
    · rw [update_of_ne hjs] at hj
      exact h.small j hj

theorem Exact.acceptUpgrade (hMax : maxConnections ≤ kMaxConnections)
    (upgrade : Upgrade) (usable : Bool) (timestampNs receivedNs : UInt64) (results : List RecvResult) :
    ∃ chains', (p.acceptUpgrade maxConnections upgrade usable timestampNs receivedNs results).2.Exact
      maxConnections chains' := by
  rw [Pool.acceptUpgrade]
  split
  · exact ⟨_, h⟩
  rename_i slot hFirst
  obtain ⟨hSlot, hClosed, -⟩ := (Scan.firstIndex_eq_some_iff _ _ _).mp hFirst
  rw [Bool.not_eq_true'] at hClosed
  split
  · obtain ⟨p', chains', hSubscribe, hExact, hSessions⟩ :=
      @Exact.subscribe _ _ _ h hMax _ hSlot hClosed (fresh _ timestampNs) rfl
    dsimp only
    rw [hSubscribe]
    have hStays := stays_acceptUpgrade upgrade timestampNs receivedNs results
    refine ⟨_, hExact.put ?_⟩
    rw [hSessions, update_self]
    exact hStays
  · exact ⟨_, h⟩

theorem Exact.close (slot : Nat) : ∃ chains', (p.close slot).Exact maxConnections chains' := by
  rw [Pool.close]
  split
  · exact ⟨_, h.put (keeps_close _).stays⟩
  · exact ⟨_, h⟩

end

/-! ## The walk -/

structure Walked (p : Pool) (payload : List UInt8) (todo : List Nat) (out : List Nat × Pool) : Prop where
  attempted : out.1 = todo.filter fun slot => !(p.sessions slot).connection.closeAfterFlush
  sessions : ∀ slot, out.2.sessions slot =
    if slot ∈ out.1 then (p.sessions slot).fanOut payload else p.sessions slot

theorem Exact.walk (payload : List UInt8) {index : Nat} {orderId : UInt64} (todo : List Nat) :
    ∀ (fuel : Nat) (done : List Nat) (p : Pool) (chains : Nat → List Nat), p.Exact maxConnections chains →
      chains index = done ++ todo → (∀ slot ∈ todo, (p.sessions slot).connection.orderId = orderId) →
      todo.length ≤ fuel →
      Walked p payload todo (walk orderId payload fuel todo.head? p) ∧
        ∃ chains', (walk orderId payload fuel todo.head? p).2.Exact maxConnections chains' := by
  induction todo with
  | nil =>
    intro fuel done p chains h _ _ _
    cases fuel with
    | zero | succ => exact ⟨⟨rfl, fun _ => rfl⟩, _, h⟩
  | cons slot todo ih =>
    intro fuel done p chains h hChain hOrder hFuel
    obtain ⟨fuel, rfl⟩ : ∃ n, fuel = n + 1 := Nat.exists_eq_succ_of_ne_zero (by rw [length_cons] at hFuel; omega)
    have hFuel : todo.length ≤ fuel := Nat.le_of_succ_le_succ hFuel
    have hMem : slot ∈ chains index := hChain ▸ mem_append_right _ mem_cons_self
    have hNext : p.next slot = todo.head? := (hChain ▸ h.indexed.linked _).next_eq
    have hNodup := hChain ▸ (h.indexed.linked _).1
    have hFresh : slot ∉ todo := (nodup_cons.mp (nodup_append.mp hNodup).2.1).1
    have hHere := hOrder slot mem_cons_self
    have hRest : ∀ j ∈ todo, (p.sessions j).connection.orderId = orderId := fun j hj => hOrder j (mem_cons_of_mem _ hj)
    rw [head?_cons, Pool.walk]
    dsimp only
    rw [hNext]
    cases hClosing : (p.sessions slot).connection.closeAfterFlush with
    | true =>
      rw [if_pos (.inr (.inl rfl))]
      obtain ⟨hWalked, hExact⟩ := ih fuel (done ++ [slot]) p _ h (by rw [hChain, append_assoc]; rfl) hRest hFuel
      refine ⟨⟨?_, hWalked.sessions⟩, hExact⟩
      rw [filter_cons_of_neg (by rw [hClosing]; exact nofun)]
      exact hWalked.attempted
    | false =>
      have hGo : ¬ (¬ (p.sessions slot).connection.isOpen = true ∨ false = true ∨
          (p.sessions slot).connection.orderId ≠ orderId) := by
        rw [h.isOpen hMem, hHere]
        exact nofun
      rw [if_neg hGo]
      have hStays := ((p.sessions slot).sends_fanOut payload).stays
      have hKeep : ∀ j ∈ todo, (p.put slot ((p.sessions slot).fanOut payload)).sessions j = p.sessions j := by
        intro j hj
        rw [sessions_put]
        exact update_of_ne (ne_of_mem_of_not_mem hj hFresh) _ _
      have hChains : ∃ done', chainsAfter chains slot ((p.sessions slot).fanOut payload) index = done' ++ todo := by
        rw [chainsAfter, hChain]
        split
        · exact ⟨done ++ [slot], by rw [append_assoc]; rfl⟩
        · have hDone : slot ∉ done := fun hd => (nodup_append.mp hNodup).2.2 slot hd slot mem_cons_self rfl
          exact ⟨done, by rw [erase_append_right _ hDone, erase_cons_head]⟩
      obtain ⟨done', hChains⟩ := hChains
      obtain ⟨hWalked, hExact⟩ := ih fuel _ _ _ (h.put hStays) hChains
        (fun j hj => by rw [hKeep j hj]; exact hRest j hj) hFuel
      have hAttempted := hWalked.attempted
      rw [filter_congr fun j hj => by rw [hKeep j hj]] at hAttempted
      refine ⟨⟨?_, fun j => ?_⟩, hExact⟩
      · rw [filter_cons_of_pos (by rw [hClosing]; rfl), hAttempted]
      rw [hWalked.sessions, sessions_put, hAttempted]
      rcases eq_or_ne j slot with rfl | hj
      · have hNot : j ∉ todo.filter fun slot => !(p.sessions slot).connection.closeAfterFlush :=
          fun hMem => hFresh (mem_of_mem_filter hMem)
        rw [if_neg hNot, update_self, if_pos mem_cons_self]
      · simp [mem_cons, hj]

end Pool

/-! ## The text of a fill fits its array -/

namespace Fill

theorem foldlM_appendText {capacity : Nat} {pieces : List (List UInt8)} (output : List UInt8)
    (h : output.length + pieces.flatten.length ≤ capacity) :
    pieces.foldlM (appendText capacity) output = some (output ++ pieces.flatten) := by
  induction pieces generalizing output with
  | nil => exact congrArg some (append_nil _).symm
  | cons piece pieces ih =>
    rw [flatten_cons, length_append] at h
    rw [foldlM_cons, appendText, if_pos (by omega), flatten_cons, ← append_assoc]
    exact ih _ (by rw [length_append]; omega)

theorem length_unsignedText {value : Nat} (h : value < 2 ^ 64) : (unsignedText value).length ≤ 20 := by
  rw [unsignedText, length_map]
  exact (Nat.length_toDigits_le_iff (by decide) (by decide)).mpr (lt_trans h (by decide))

theorem length_signedText (value : BitVec 64) : (signedText value).flatten.length ≤ 21 := by
  rw [signedText]
  split
  · rw [flatten_singleton]
    exact Nat.le_succ_of_le (length_unsignedText value.isLt)
  have hDigits := length_unsignedText (0 - value).isLt
  rw [flatten_cons, flatten_singleton, length_append]
  change 1 + _ ≤ 21
  omega

theorem length_pieces (fill : Fill) : 0 < fill.pieces.flatten.length ∧ fill.pieces.flatten.length ≤ 154 := by
  have hOrder := length_unsignedText fill.orderId.toNat_lt
  have hQty := length_signedText fill.filledQty
  have hPrice := length_signedText fill.fillPrice
  have hTime := length_unsignedText fill.timestampNs.toNat_lt
  have hEvent : (ascii "\x7b\"event\":\"fill\",\"order_id\":").length = 27 := by decide +kernel
  have hFilled : (ascii ",\"filled_qty\":").length = 14 := by decide +kernel
  have hAt : (ascii ",\"fill_price\":").length = 14 := by decide +kernel
  have hStamp : (ascii ",\"timestamp_ns\":").length = 16 := by decide +kernel
  have hEnd : (ascii "\x7d").length = 1 := by decide +kernel
  simp only [pieces, flatten_append, flatten_cons, flatten_nil, length_append, length_nil]
  omega

theorem formatFillJson_eq (fill : Fill) : fill.formatFillJson 256 = some fill.pieces.flatten := by
  have hLength := fill.length_pieces.2
  rw [formatFillJson, foldlM_appendText [] (by rw [length_nil]; omega), nil_append]

end Fill

namespace Pool

variable {p : Pool} {maxConnections : Nat} {chains : Nat → List Nat}

def Subscribed (p : Pool) (orderId : UInt64) (slot : Nat) : Prop :=
  (p.sessions slot).Live ∧ (p.sessions slot).connection.orderId = orderId

structure Reached (p : Pool) (fill : Fill) (out : List Nat × Pool) : Prop where
  once : out.1.Nodup
  attempted : ∀ slot, slot ∈ out.1 ↔ p.Subscribed fill.orderId slot
  sessions : ∃ payload, fill.formatFillJson 256 = some payload ∧
    ∀ slot, out.2.sessions slot = if slot ∈ out.1 then (p.sessions slot).fanOut payload else p.sessions slot

theorem Exact.broadcast (h : p.Exact maxConnections chains) (fill : Fill) :
    Reached p fill (p.broadcast maxConnections fill) ∧
      ∃ chains', (p.broadcast maxConnections fill).2.Exact maxConnections chains' := by
  have hText := fill.formatFillJson_eq
  have hPos := fill.length_pieces.1
  rw [Pool.broadcast, hText]
  dsimp only
  rw [if_neg (ne_of_gt hPos)]
  cases hFind : p.findSubscription fill.orderId with
  | none =>
    have hNobody : ∀ slot, ¬ p.Subscribed fill.orderId slot := by
      intro slot hSubscribed
      have hSome := (h.find_isSome_iff _).mpr ⟨slot, hSubscribed.1.1, hSubscribed.2⟩
      rw [hFind] at hSome
      cases hSome
    have hNothing : Pool.walk fill.orderId fill.pieces.flatten maxConnections none p = ([], p) := by
      cases maxConnections with
      | zero | succ => rfl
    rw [bind_none, hNothing]
    exact ⟨⟨nodup_nil, fun slot => iff_of_false not_mem_nil (hNobody slot), _, hText, fun _ => rfl⟩, _, h⟩
  | some index =>
    obtain ⟨-, hKey⟩ := (h.indexed.find_iff _ _).mp hFind
    have hOrder : ∀ slot ∈ chains index, (p.sessions slot).connection.orderId = fill.orderId :=
      fun slot hMem => (h.keys_iff hMem _).mp hKey
    obtain ⟨hWalked, hExact⟩ := Exact.walk _ _ _ [] p _ h rfl hOrder (h.length_le _)
    rw [bind_some, (h.indexed.linked _).head_eq]
    refine ⟨⟨?_, fun slot => ?_, _, hText, hWalked.sessions⟩, hExact⟩
    · rw [hWalked.attempted]
      exact (h.indexed.linked _).1.filter _
    rw [hWalked.attempted, mem_filter, Bool.not_eq_true']
    constructor
    · rintro ⟨hMem, hFlag⟩
      exact ⟨⟨h.isOpen hMem, hFlag⟩, hOrder slot hMem⟩
    rintro ⟨⟨hOpen, hFlag⟩, hSame⟩
    obtain ⟨b, hb, -, hMem⟩ := h.chain hOpen
    have hOther := (h.indexed.find_iff _ b).mpr ⟨hb, (h.keys_iff hMem _).mpr hSame⟩
    cases hFind.symm.trans hOther
    exact ⟨hMem, hFlag⟩

def OnChain (p : Pool) (index slot : Nat) : Prop :=
  ∃ chain, Linked p.next p.prev (p.subscriptions index).head chain ∧ slot ∈ chain

theorem Exact.onChain_iff (h : p.Exact maxConnections chains) {index : Nat} (slot : Nat) :
    p.OnChain index slot ↔ slot ∈ chains index := by
  constructor
  · rintro ⟨chain, hLinked, hMem⟩
    rwa [← hLinked.unique (h.indexed.linked _)]
  · exact fun hMem => ⟨_, h.indexed.linked _, hMem⟩

structure Promises (maxConnections : Nat) (p : Pool) : Prop where
  onlyOpen : ∀ index slot, p.OnChain index slot → (p.sessions slot).connection.isOpen = true
  oneChain : ∀ slot, (p.sessions slot).connection.isOpen = true → slot < maxConnections ∧
    ∃ index < kSubscriptionBuckets, (∀ b, p.OnChain b slot ↔ b = index) ∧
      ∀ b < kSubscriptionBuckets, (p.subscriptions b).state = .occupied ∧
        (p.subscriptions b).orderId = (p.sessions slot).connection.orderId ↔ b = index
  found : ∀ orderId, (p.findSubscription orderId).isSome ↔
    ∃ slot, (p.sessions slot).connection.isOpen = true ∧ (p.sessions slot).connection.orderId = orderId
  subscribes : ∀ slot < maxConnections, (p.sessions slot).connection.isOpen = false → ∀ upgrade timestampNs,
    ({ p with sessions := update p.sessions slot (Session.fresh upgrade timestampNs) }.subscribe slot).1 = true
  reached : ∀ fill, Reached p fill (p.broadcast maxConnections fill)

theorem Exact.promises (h : p.Exact maxConnections chains) (hMax : maxConnections ≤ kMaxConnections) :
    p.Promises maxConnections where
  onlyOpen index slot hOn := h.isOpen ((h.onChain_iff slot).mp hOn)
  oneChain slot hOpen := by
    obtain ⟨index, hIndex, hBucket, hMem⟩ := h.chain hOpen
    refine ⟨h.small slot hOpen, _, hIndex, fun b => ?_, fun b hb => ?_⟩
    · rw [h.onChain_iff, h.indexed.mem, hBucket, some_inj, eq_comm]
    rw [← key_eq_order_iff]
    have hHere := (h.indexed.find_iff _ _).mpr ⟨hIndex, (h.keys_iff hMem _).mpr rfl⟩
    constructor
    · intro hKey
      have hThere := (h.indexed.find_iff _ b).mpr ⟨hb, hKey⟩
      exact Option.some.inj (hThere.symm.trans hHere)
    · rintro rfl
      exact (h.keys_iff hMem _).mpr rfl
  found := h.find_isSome_iff
  subscribes slot hSlot hFree upgrade timestampNs := by
    obtain ⟨p', _, hSubscribe, -⟩ := @Exact.subscribe _ _ _ h hMax _ hSlot hFree (fresh _ _) rfl
    rw [hSubscribe]
  reached fill := (h.broadcast fill).1

end Pool

/-! ## Runs -/

inductive PoolOp where
  | acceptUpgrade (upgrade : Upgrade) (usable : Bool) (timestampNs receivedNs : UInt64) (results : List RecvResult)
  | close (slot : Nat)
  | broadcast (fill : Fill)
  | io (slot : Nat) (ready : Readiness)
  | serviceKeepalive (slot : Nat) (timestampNs : UInt64)

def PoolOp.step (limits : Limits) (keepAlive : KeepAlive) (op : PoolOp) (p : Pool) : Unit × Pool :=
  match op with
  | .acceptUpgrade upgrade usable timestampNs receivedNs results =>
    ((), (p.acceptUpgrade limits.maxConnections upgrade usable timestampNs receivedNs results).2)
  | .close slot => ((), p.close slot)
  | .broadcast fill => ((), (p.broadcast limits.maxConnections fill).2)
  | .io slot ready => ((), p.put slot ((p.sessions slot).ioPass ready))
  | .serviceKeepalive slot timestampNs => ((), p.put slot ((p.sessions slot).serviceKeepalive keepAlive timestampNs))

theorem PoolOp.step_exact {limits : Limits} {keepAlive : KeepAlive} (op : PoolOp) (p : Pool)
    (h : ∃ chains, p.Exact limits.maxConnections chains) :
    ∃ chains, (op.step limits keepAlive p).2.Exact limits.maxConnections chains := by
  obtain ⟨chains, h⟩ := h
  cases op with
  | acceptUpgrade upgrade usable timestampNs receivedNs results =>
    exact h.acceptUpgrade limits.max_le upgrade usable _ receivedNs results
  | close slot => exact h.close slot
  | broadcast fill => exact (h.broadcast fill).2
  | io slot ready => exact ⟨_, h.put (stays_ioPass _ ready)⟩
  | serviceKeepalive slot timestampNs => exact ⟨_, h.put (sends_serviceKeepalive keepAlive _ _).stays⟩

/-- Whatever the worker has done, the index is exact. -/
theorem subscriptions_exact (limits : Limits) (keepAlive : KeepAlive) (ops : List PoolOp) :
    (final (PoolOp.step limits keepAlive) ops {}).Promises limits.maxConnections := by
  obtain ⟨chains, h⟩ := @final_invariant _ _ _ (PoolOp.step _ _) _
    (fun p => ∃ chains, p.Exact _ _) (PoolOp.step_exact) ops
    ⟨_, Pool.exact_empty⟩
  exact h.promises limits.max_le

end LuvFlicker.Ws
