import SoftPhone.Provider.Connections
import Mathlib.Data.List.Induction
import Mathlib.Data.List.Nodup
import Mathlib.Order.Basic

/-!
# The size of the connection table

When the table is full, `addConnection` looks for the connection that has not been used for the
longest time.  But the loop never lowers `older_time`, so that it finds the last connection that was
used before now, whichever that is, and it may find none.  So the number of connections stays within
`nmax_connections`, and the one that was used longest ago is evicted, if and only if that one happens
to be the oldest (`evictsOldest_iff`).
-/

namespace SoftPhone
namespace SipTransportCO

variable {Id Conn : Type} [DecidableEq Id] [DecidableEq Conn]

/-- There is room for all connections of the table. -/
def WithinBound (s : SipTransportCO Id Conn) : Prop :=
  (s.connections.length : ℤ) ≤ s.nmaxConnections

/-- A connection must be evicted before this one is added: it replaces none, and the table is
full. -/
def Full (s : SipTransportCO Id Conn) (c : Conn) : Prop :=
  s.get (s.connectionId c) = none ∧ s.nmaxConnections ≤ s.connections.length

/-- A connection of the table, and none of the others was used before it. -/
def Oldest (s : SipTransportCO Id Conn) (k : Id) (v : Conn) : Prop :=
  (k, v) ∈ s.connections ∧ ∀ p ∈ s.connections, s.lastTime v ≤ s.lastTime p.2

/-- Where a connection must be evicted, it is one whose last use is the oldest, and it alone. -/
def EvictsOldest (s : SipTransportCO Id Conn) : Event Id Conn → Prop
  | .add c now order => s.Full c → ∃ k v others, s.Oldest k v ∧
      s.connections.Perm ((k, v) :: others) ∧
      (s.addConnection c now order).connections.Perm ((s.connectionId c, c) :: others)
  | _ => True

/-- Where a connection must be evicted, the last one of the enumeration that was used before now has
the id of one whose last use is the oldest. -/
def OldestIsLast (s : SipTransportCO Id Conn) : Event Id Conn → Prop
  | .add c now order => s.Full c → ∃ before d after v, order = before ++ d :: after ∧
      s.lastTime d < now ∧ (∀ x ∈ after, now ≤ s.lastTime x) ∧ s.Oldest (s.connectionId d) v
  | _ => True

/-! ## The loop -/

section Loop

omit [DecidableEq Id] [DecidableEq Conn] in
theorem olderId_append (s : SipTransportCO Id Conn) (now : ℤ) (order : List Conn) (c : Conn) :
    s.olderId now (order ++ [c]) =
      if s.lastTime c < now then some (s.connectionId c) else s.olderId now order := by
  rw [olderId, List.foldl_append]
  rfl

omit [DecidableEq Id] [DecidableEq Conn] in
/-- **The loop finds the last connection that was used before now.** -/
theorem olderId_eq_some_iff (s : SipTransportCO Id Conn) (now : ℤ) (order : List Conn) (k : Id) :
    s.olderId now order = some k ↔ ∃ before d after, order = before ++ d :: after ∧
      s.lastTime d < now ∧ (∀ x ∈ after, now ≤ s.lastTime x) ∧ s.connectionId d = k := by
  induction order using List.reverseRecOn with
  | nil =>
    constructor
    · intro h
      exact nomatch h
    · rintro ⟨before, d, after, h, -⟩
      exact absurd h (by simp)
  | append_singleton order c ih =>
    rw [olderId_append]
    by_cases hc : s.lastTime c < now
    · rw [if_pos hc]
      constructor
      · intro h
        exact ⟨order, c, [], rfl, hc, fun x hx => absurd hx List.not_mem_nil, Option.some.inj h⟩
      · rintro ⟨before, d, after, horder, -, hafter, rfl⟩
        rcases List.eq_nil_or_concat after with rfl | ⟨after', x, rfl⟩
        · have heq := List.append_inj_right' horder rfl
          rw [(List.cons.inj heq).1]
        · -- a later one would have been used after now, and it is `c`
          have hlast : order ++ [c] = (before ++ d :: after') ++ [x] := by
            rw [horder, List.append_assoc, List.cons_append, List.concat_eq_append]
          obtain rfl : c = x := (List.cons.inj (List.append_inj_right' hlast rfl)).1
          have hle := hafter c (by simp)
          omega
    · rw [if_neg hc, ih]
      constructor
      · rintro ⟨before, d, after, rfl, hd, hafter, hk⟩
        refine ⟨before, d, after ++ [c], by simp, hd, fun x hx => ?_, hk⟩
        rcases List.mem_append.mp hx with hx | hx
        · exact hafter x hx
        · rw [List.mem_singleton.mp hx]
          omega
      · rintro ⟨before, d, after, horder, hd, hafter, hk⟩
        rcases List.eq_nil_or_concat after with rfl | ⟨after', x, rfl⟩
        · have heq := List.append_inj_right' horder rfl
          rw [(List.cons.inj heq).1] at hc
          exact absurd hd hc
        · have hlast : order ++ [c] = (before ++ d :: after') ++ [x] := by
            rw [horder, List.append_assoc, List.cons_append, List.concat_eq_append]
          exact ⟨before, d, after', List.append_inj_left' hlast rfl, hd,
            fun x hx => hafter x (by simp [hx]), hk⟩

end Loop

/-! ## The table -/

section Size

variable {s : SipTransportCO Id Conn}

/-- Each id is in the table once. -/
def Keyed (s : SipTransportCO Id Conn) : Prop := (s.connections.map Prod.fst).Nodup

omit [DecidableEq Conn] in
theorem get_eq_none_iff (s : SipTransportCO Id Conn) (k : Id) :
    s.get k = none ↔ k ∉ s.connections.map Prod.fst := by
  rw [get, Option.map_eq_none_iff, List.find?_eq_none, List.mem_map]
  constructor
  · rintro h ⟨p, hp, rfl⟩
    exact h p hp (decide_eq_true rfl)
  · intro h p hp hk
    exact h ⟨p, hp, of_decide_eq_true hk⟩

omit [DecidableEq Conn] in
/-- The connection of an id, and all the others. -/
theorem perm_erase {k : Id} {v : Conn} (h : s.Keyed) (hmem : (k, v) ∈ s.connections) :
    s.connections.Perm ((k, v) :: (s.erase k).connections) := by
  have hall (ps : List (Id × Conn)) (hps : (ps.map Prod.fst).Nodup) (hp : (k, v) ∈ ps) :
      ps.Perm ((k, v) :: ps.filter (·.1 ≠ k)) := by
    induction ps with
    | nil => exact absurd hp List.not_mem_nil
    | cons p ps ih =>
      rw [List.map_cons, List.nodup_cons] at hps
      rcases List.mem_cons.mp hp with rfl | hp
      · have hkeep : ps.filter (·.1 ≠ k) = ps := by
          refine List.filter_eq_self.mpr fun q hq => decide_eq_true ?_
          intro heq
          exact hps.1 (List.mem_map.mpr ⟨q, hq, heq⟩)
        rw [List.filter_cons_of_neg (by simp), hkeep]
      · have hne : p.1 ≠ k := by
          intro heq
          exact hps.1 (List.mem_map.mpr ⟨(k, v), hp, heq.symm⟩)
        rw [List.filter_cons_of_pos (by simpa using hne)]
        exact ((ih hps.2 hp).cons p).trans (List.Perm.swap ..)
  exact hall s.connections h hmem

theorem connections_removeConnection (s : SipTransportCO Id Conn) (k : Id) :
    (s.removeConnection k).connections = (s.erase k).connections := by
  rw [removeConnection]
  cases hk : s.get k with
  | none =>
    rw [get_eq_none_iff] at hk
    refine (List.filter_eq_self.mpr fun p hp => decide_eq_true ?_).symm
    rintro rfl
    exact hk (List.mem_map_of_mem hp)
  | some c => exact connections_haltConnection ..

/-- Room is made by taking one id out of the table, or none. -/
theorem connections_makeRoom (s : SipTransportCO Id Conn) (k : Id) (now : ℤ) (order : List Conn) :
    (s.makeRoom k now order).connections.Sublist s.connections := by
  rw [makeRoom]
  cases hk : s.get k with
  | some old =>
    show ((s.haltConnection old).connections.filter _).Sublist _
    rw [connections_haltConnection]
    exact List.filter_sublist
  | none =>
    dsimp only
    split
    · cases s.olderId now order with
      | none => exact List.Sublist.refl _
      | some older =>
        dsimp only
        rw [connections_removeConnection]
        exact List.filter_sublist
    · exact List.Sublist.refl _

/-- What `addConnection` leaves where a connection must be evicted. -/
theorem connections_addConnection {c : Conn} (h : s.Full c) (now : ℤ) (order : List Conn) :
    (s.addConnection c now order).connections =
      ((s.olderId now order).elim s fun k => s.erase k).connections ++ [(s.connectionId c, c)] := by
  rw [addConnection, makeRoom, h.1]
  dsimp only
  rw [if_pos h.2]
  cases s.olderId now order with
  | none => rfl
  | some k =>
    show (s.removeConnection k).connections ++ _ = _
    rw [connections_removeConnection]
    rfl

omit [DecidableEq Id] in
theorem nmaxConnections_haltConnection (s : SipTransportCO Id Conn) (c : Conn) :
    (s.haltConnection c).nmaxConnections = s.nmaxConnections := by
  rw [haltConnection]
  split <;> rfl

theorem nmaxConnections_removeConnection (s : SipTransportCO Id Conn) (k : Id) :
    (s.removeConnection k).nmaxConnections = s.nmaxConnections := by
  rw [removeConnection]
  cases s.get k with
  | none => rfl
  | some c => exact nmaxConnections_haltConnection ..

omit [DecidableEq Id] in
theorem nmaxConnections_halt (s : SipTransportCO Id Conn) :
    s.halt.nmaxConnections = s.nmaxConnections := by
  have hall (ps : List (Id × Conn)) (s : SipTransportCO Id Conn) :
      (ps.foldl (fun s p => s.haltConnection p.2) s).nmaxConnections = s.nmaxConnections := by
    induction ps generalizing s with
    | nil => rfl
    | cons p ps ih => rw [List.foldl_cons, ih, nmaxConnections_haltConnection]
  exact hall s.connections s

theorem nmaxConnections_makeRoom (s : SipTransportCO Id Conn) (k : Id) (now : ℤ)
    (order : List Conn) : (s.makeRoom k now order).nmaxConnections = s.nmaxConnections := by
  rw [makeRoom]
  cases s.get k with
  | some old => exact nmaxConnections_haltConnection s old
  | none =>
    dsimp only
    split
    · cases s.olderId now order with
      | none => rfl
      | some older => exact nmaxConnections_removeConnection s older
    · rfl

/-- The maximum is never changed. -/
theorem nmaxConnections_apply (s : SipTransportCO Id Conn) (e : Event Id Conn) :
    (s.apply e).nmaxConnections = s.nmaxConnections := by
  cases e with
  | add c now order => exact nmaxConnections_makeRoom ..
  | remove k => exact nmaxConnections_removeConnection ..
  | terminated c => exact nmaxConnections_removeConnection ..
  | close c => rfl
  | use c now => rfl
  | halt => exact nmaxConnections_halt s

/-- No step but `addConnection` puts anything into the table. -/
theorem connections_apply (s : SipTransportCO Id Conn) (e : Event Id Conn) :
    (∃ c now order, e = .add c now order) ∨ (s.apply e).connections.Sublist s.connections := by
  cases e with
  | add c now order => exact .inl ⟨c, now, order, rfl⟩
  | remove k =>
    refine .inr ?_
    rw [show s.apply (.remove k) = s.removeConnection k from rfl, connections_removeConnection]
    exact List.filter_sublist
  | terminated c =>
    refine .inr ?_
    rw [show s.apply (.terminated c) = s.removeConnection (s.connectionId c) from rfl,
      connections_removeConnection]
    exact List.filter_sublist
  | close c => exact .inr (List.Sublist.refl _)
  | use c now => exact .inr (List.Sublist.refl _)
  | halt =>
    refine .inr ?_
    rw [show s.apply .halt = s.halt from rfl, connections_halt]

/-- **Each id stays in the table once.** -/
theorem keyed_apply (h : s.Keyed) (e : Event Id Conn) : (s.apply e).Keyed := by
  rcases connections_apply s e with ⟨c, now, order, rfl⟩ | hsub
  · have hroom := ((connections_makeRoom s (s.connectionId c) now order).map Prod.fst).nodup h
    have hfree := (get_makeRoom s (s.connectionId c) now order).1
    rw [get_eq_none_iff] at hfree
    show (((s.makeRoom _ now order).connections ++ [(s.connectionId c, c)]).map Prod.fst).Nodup
    rw [List.map_append, List.nodup_append]
    refine ⟨hroom, List.nodup_singleton _, fun a ha b hb => ?_⟩
    obtain rfl : b = s.connectionId c := List.mem_singleton.mp hb
    rintro rfl
    exact hfree ha
  · exact (hsub.map Prod.fst).nodup h

end Size

/-! ## Steps -/

section Steps

variable {s : SipTransportCO Id Conn}

/-- **One step evicts the oldest if and only if** the loop finds the oldest. -/
theorem evictsOldest_step_iff (h : s.Keyed) (e : Event Id Conn) :
    s.EvictsOldest e ↔ s.OldestIsLast e := by
  cases e with
  | add c now order =>
    refine forall_congr' fun hfull => ?_
    rw [connections_addConnection hfull]
    constructor
    · rintro ⟨k, v, others, hold, hperm, hadd⟩
      have hleft : (((s.olderId now order).elim s fun k => s.erase k).connections).Perm others :=
        (List.perm_cons _).mp ((List.perm_append_singleton _ _).symm.trans hadd)
      cases holder : s.olderId now order with
      | none =>
        rw [holder] at hleft
        have hlen := (hleft.symm.trans hperm).length_eq
        simp only [List.length_cons] at hlen
        omega
      | some k' =>
        rw [holder] at hleft
        obtain ⟨before, d, after, horder, hd, hafter, hk'⟩ :=
          (olderId_eq_some_iff s now order k').mp holder
        have hgone : k = k' := by
          by_contra hne
          have hkept : (k, v) ∈ others :=
            hleft.subset (List.mem_filter.mpr ⟨hold.1, decide_eq_true hne⟩)
          have hkeys := (hperm.map Prod.fst).nodup_iff.mp h
          rw [List.map_cons, List.nodup_cons] at hkeys
          exact hkeys.1 (List.mem_map.mpr ⟨(k, v), hkept, rfl⟩)
        exact ⟨before, d, after, v, horder, hd, hafter, by rwa [hk', ← hgone]⟩
    · rintro ⟨before, d, after, v, horder, hd, hafter, hold⟩
      have holder : s.olderId now order = some (s.connectionId d) :=
        (olderId_eq_some_iff s now order _).mpr ⟨before, d, after, horder, hd, hafter, rfl⟩
      rw [holder]
      exact ⟨_, v, _, hold, perm_erase h hold.1, List.perm_append_singleton _ _⟩
  | remove k => exact Iff.rfl
  | terminated c => exact Iff.rfl
  | close c => exact Iff.rfl
  | use c now => exact Iff.rfl
  | halt => exact Iff.rfl

/-- **The number of connections stays within the maximum** when the oldest is evicted. -/
theorem withinBound_apply (h : s.WithinBound) (hkeyed : s.Keyed) {e : Event Id Conn}
    (he : s.EvictsOldest e) : (s.apply e).WithinBound := by
  rw [WithinBound, nmaxConnections_apply]
  rw [WithinBound] at h
  rcases connections_apply s e with ⟨c, now, order, rfl⟩ | hsub
  · show ((s.addConnection c now order).connections.length : ℤ) ≤ _
    by_cases hfull : s.Full c
    · obtain ⟨k, v, others, -, hperm, hadd⟩ := he hfull
      have hlen := hperm.length_eq
      rw [List.length_cons] at hlen
      rw [hadd.length_eq, List.length_cons]
      omega
    · have hput : (s.addConnection c now order).connections.length =
          (s.makeRoom (s.connectionId c) now order).connections.length + 1 :=
        List.length_append ..
      rw [hput]
      cases hk : s.get (s.connectionId c) with
      | some old =>
        -- the one that is replaced goes
        have hroom : (s.makeRoom (s.connectionId c) now order).connections =
            (s.erase (s.connectionId c)).connections := by
          rw [makeRoom, hk]
          exact congrArg (List.filter _) (connections_haltConnection s old)
        have hmem : ∃ v, (s.connectionId c, v) ∈ s.connections := by
          by_contra hnot
          have hnone : s.get (s.connectionId c) = none := by
            rw [get_eq_none_iff, List.mem_map]
            rintro ⟨p, hp, hkey⟩
            exact hnot ⟨p.2, hkey ▸ hp⟩
          rw [hnone] at hk
          exact nomatch hk
        obtain ⟨v, hv⟩ := hmem
        have hlen := (perm_erase hkeyed hv).length_eq
        rw [List.length_cons] at hlen
        rw [hroom]
        omega
      | none =>
        have hlt : ¬s.nmaxConnections ≤ s.connections.length := fun hle => hfull ⟨hk, hle⟩
        have hle := (connections_makeRoom s (s.connectionId c) now order).length_le
        omega
  · have hle := hsub.length_le
    omega

end Steps

/-! ## Histories -/

section Runs

variable {s₀ s : SipTransportCO Id Conn} {steps : List (SipTransportCO Id Conn × Event Id Conn)}

/-- What holds of the table in every history that begins with an empty one. -/
theorem keyed_of_history (h : History s₀ steps s) (h₀ : s₀.connections = []) :
    s.Keyed ∧ s.nmaxConnections = s₀.nmaxConnections := by
  induction h with
  | nil =>
    refine ⟨?_, rfl⟩
    rw [Keyed, h₀]
    exact List.nodup_nil
  | snoc _ _ ih => exact ⟨keyed_apply ih.1 _, (nmaxConnections_apply ..).trans ih.2⟩

/-- **In a history that begins with an empty table, the number of connections never exceeds the
maximum and each eviction takes one whose last use is the oldest, if and only if** the maximum is not
negative, and whenever a connection must be evicted, the last one of the enumeration that was used
before now has the id of the oldest. -/
theorem evictsOldest_iff (h : History s₀ steps s) (h₀ : s₀.connections = []) :
    (s.WithinBound ∧ ∀ p ∈ steps, p.1.WithinBound ∧ p.1.EvictsOldest p.2) ↔
      0 ≤ s₀.nmaxConnections ∧ ∀ p ∈ steps, p.1.OldestIsLast p.2 := by
  induction h with
  | nil =>
    rw [WithinBound, h₀]
    simp
  | @snoc steps s e h he ih =>
    obtain ⟨hkeyed, hmax⟩ := keyed_of_history h h₀
    have hstep := evictsOldest_step_iff hkeyed e
    constructor
    · rintro ⟨-, hall⟩
      obtain ⟨hbound, hevicts⟩ := hall (s, e) (List.mem_append_right _ (List.mem_singleton_self _))
      obtain ⟨hpos, hlast⟩ :=
        ih.mp ⟨hbound, fun p hp => hall p (List.mem_append_left _ hp)⟩
      refine ⟨hpos, fun p hp => ?_⟩
      rcases List.mem_append.mp hp with hp | hp
      · exact hlast p hp
      · rw [List.mem_singleton.mp hp]
        exact hstep.mp hevicts
    · rintro ⟨hpos, hall⟩
      obtain ⟨hbound, hbefore⟩ :=
        ih.mpr ⟨hpos, fun p hp => hall p (List.mem_append_left _ hp)⟩
      have hevicts : s.EvictsOldest e :=
        hstep.mpr (hall (s, e) (List.mem_append_right _ (List.mem_singleton_self _)))
      refine ⟨withinBound_apply hbound hkeyed hevicts, fun p hp => ?_⟩
      rcases List.mem_append.mp hp with hp | hp
      · exact hbefore p hp
      · rw [List.mem_singleton.mp hp]
        exact ⟨hbound, hevicts⟩

end Runs

/-- A transport that keeps one connection. -/
def keepsOne : SipTransportCO ℕ ℕ where
  nmaxConnections := 1
  remoteId c := c
  nullId := 0

/-- A second connection is added, and the first one is the oldest and the last. -/
theorem history_second : History keepsOne
    [(keepsOne, .add 1 3 []), (keepsOne.apply (.add 1 3 []), .add 2 5 [1])]
    ((keepsOne.apply (.add 1 3 [])).apply (.add 2 5 [1])) := by
  have hfirst : History keepsOne [(keepsOne, .add 1 3 [])] (keepsOne.apply (.add 1 3 [])) :=
    .snoc .nil (show keepsOne.Enabled (.add 1 3 []) from List.Perm.refl [])
  exact hfirst.snoc (show Enabled _ (.add 2 5 [1]) from List.Perm.refl [1])

/-- The first connection is evicted, and the second one is held. -/
theorem evictsOldest_iff_second :
    ((keepsOne.apply (.add 1 3 [])).apply (.add 2 5 [1])).WithinBound ∧
      (keepsOne.apply (.add 1 3 [])).EvictsOldest (.add 2 5 [1]) := by
  have hall := (evictsOldest_iff history_second rfl).mpr ⟨by decide, fun p hp => by
    rcases List.mem_cons.mp hp with rfl | hp
    · intro hfull
      exact absurd hfull.2 (by decide)
    · rw [List.mem_singleton.mp hp]
      intro _
      refine ⟨[], 1, [], 1, rfl, by decide, fun x hx => absurd hx List.not_mem_nil,
        List.mem_singleton_self _, fun p hp => ?_⟩
      obtain rfl : p = (1, 1) := List.mem_singleton.mp hp
      exact Int.le_refl _⟩
  exact ⟨hall.1, (hall.2 _ (List.mem_cons_of_mem _ (List.mem_singleton_self _))).2⟩

/-- A transport that keeps two connections. -/
def keepsTwo : SipTransportCO ℕ ℕ where
  nmaxConnections := 2
  remoteId c := c
  nullId := 0

/-- One connection is used before the other. -/
def usedInOrder : SipTransportCO ℕ ℕ :=
  (((keepsTwo.apply (.add 1 1 [])).apply (.use 1 1)).apply (.add 2 2 [1])).apply (.use 2 2)

/-- **The younger one is evicted**, since the enumeration ends with it. -/
theorem usedInOrder_evicts :
    History keepsTwo [(keepsTwo, .add 1 1 []), (keepsTwo.apply (.add 1 1 []), .use 1 1),
        ((keepsTwo.apply (.add 1 1 [])).apply (.use 1 1), .add 2 2 [1]),
        (((keepsTwo.apply (.add 1 1 [])).apply (.use 1 1)).apply (.add 2 2 [1]), .use 2 2),
        (usedInOrder, .add 3 5 [1, 2])] (usedInOrder.apply (.add 3 5 [1, 2])) ∧
      usedInOrder.lastTime 1 < usedInOrder.lastTime 2 ∧
      (usedInOrder.apply (.add 3 5 [1, 2])).connections = [(1, 1), (3, 3)] ∧
      ¬usedInOrder.EvictsOldest (.add 3 5 [1, 2]) := by
  refine ⟨?_, by decide, rfl, fun h => ?_⟩
  · have hone : History keepsTwo [(keepsTwo, .add 1 1 [])] (keepsTwo.apply (.add 1 1 [])) :=
      .snoc .nil (show keepsTwo.Enabled (.add 1 1 []) from List.Perm.refl [])
    have hused := hone.snoc (show Enabled _ (.use 1 1) from trivial)
    have htwo := hused.snoc (show Enabled _ (.add 2 2 [1]) from List.Perm.refl [1])
    have hready := htwo.snoc (show Enabled _ (.use 2 2) from trivial)
    exact hready.snoc (show usedInOrder.Enabled (.add 3 5 [1, 2]) from List.Perm.refl [1, 2])
  · -- the one that goes is 2, and 1 was used before it
    have hkeyed : usedInOrder.Keyed := show [1, 2].Nodup by decide
    have hlast := (evictsOldest_step_iff hkeyed _).mp h ⟨rfl, by decide⟩
    obtain ⟨before, d, after, v, horder, -, hafter, hmem, hold⟩ := hlast
    rcases List.eq_nil_or_concat after with rfl | ⟨after', x, rfl⟩
    · obtain ⟨-, hd⟩ := List.append_inj' (show [1] ++ [2] = before ++ [d] from horder) rfl
      obtain rfl : 2 = d := List.singleton_inj.mp hd
      obtain rfl : v = 2 := by
        have hmem' : (2, v) ∈ [(1, 1), (2, 2)] := hmem
        simpa using hmem'
      exact absurd (hold (1, 1) (List.mem_cons_self ..)) (by decide)
    · have hx : x ∈ [1, 2] := by
        rw [horder]
        simp
      have hle := hafter x (by simp)
      have hlt : ∀ y ∈ [1, 2], usedInOrder.lastTime y < 5 := by decide
      have hxlt := hlt x hx
      omega

end SipTransportCO

end SoftPhone
