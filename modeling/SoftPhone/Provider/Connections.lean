import Mathlib.Data.Int.Notation
import Mathlib.Data.List.Perm.Basic
import Mathlib.Logic.Function.Basic
import Mathlib.Tactic.Common

/-!
# Class `SipTransportCO`

A connection-oriented transport has a table of its connections, by their ids.  The id of a
connection is the one of its remote end point.  When a connection terminates, its thread calls
`processConnectionTerminated`, and this removes what the table has for the id.

So a connection whose id has been taken over by another one removes the other one (`proper_iff`).
-/

namespace SoftPhone

/-- Class `SipTransportCO`, with what it uses of the connections: the id of the remote end point of
the socket, when the connection was used last, and whether it has been halted, or has no socket any
more.  Then its id is another one. -/
structure SipTransportCO (Id Conn : Type) where
  nmaxConnections : ℤ
  remoteId : Conn → Id
  nullId : Id
  connections : List (Id × Conn) := []
  lastTime : Conn → ℤ := fun _ => 0
  halted : Conn → Bool := fun _ => false
  closed : Conn → Bool := fun _ => false

namespace SipTransportCO

variable {Id Conn : Type} [DecidableEq Id] [DecidableEq Conn]

/-- `connections.get(connection_id)`. -/
def get (s : SipTransportCO Id Conn) (k : Id) : Option Conn :=
  (s.connections.find? (·.1 = k)).map Prod.snd

/-- `ConnectionId(SipTransportConnection)`. -/
def connectionId (s : SipTransportCO Id Conn) (c : Conn) : Id :=
  if s.closed c then s.nullId else s.remoteId c

/-- `connections.remove(connection_id)`. -/
def erase (s : SipTransportCO Id Conn) (k : Id) : SipTransportCO Id Conn :=
  { s with connections := s.connections.filter (·.1 ≠ k) }

/-- `SipTransportConnection.halt`. -/
def haltConnection (s : SipTransportCO Id Conn) (c : Conn) : SipTransportCO Id Conn :=
  if s.closed c then s else { s with halted := Function.update s.halted c true }

/-- `removeConnection`. -/
def removeConnection (s : SipTransportCO Id Conn) (k : Id) : SipTransportCO Id Conn :=
  match s.get k with
  | none => s
  | some c => (s.erase k).haltConnection c

/-- The loop of `addConnection` over the connections of the table: the id of the last one that was
used before now. -/
def olderId (s : SipTransportCO Id Conn) (now : ℤ) (order : List Conn) : Option Id :=
  order.foldl (fun older co => if s.lastTime co < now then some (s.connectionId co) else older) none

/-- What `addConnection` does before the connection is put into the table: the one that it replaces
is removed, or if there is none and the table is full, an unused one. -/
def makeRoom (s : SipTransportCO Id Conn) (k : Id) (now : ℤ) (order : List Conn) :
    SipTransportCO Id Conn :=
  match s.get k with
  | some old => (s.haltConnection old).erase k
  | none =>
    if s.nmaxConnections ≤ s.connections.length then
      match s.olderId now order with
      | some k' => s.removeConnection k'
      | none => s
    else s

/-- `connections.put(connection_id,conn)`. -/
def put (s : SipTransportCO Id Conn) (k : Id) (c : Conn) : SipTransportCO Id Conn :=
  { s with connections := s.connections ++ [(k, c)] }

/-- `addConnection(SipTransportConnection)`. -/
def addConnection (s : SipTransportCO Id Conn) (c : Conn) (now : ℤ) (order : List Conn) :
    SipTransportCO Id Conn :=
  (s.makeRoom (s.connectionId c) now order).put (s.connectionId c) c

/-- `processConnectionTerminated`. -/
def processConnectionTerminated (s : SipTransportCO Id Conn) (c : Conn) : SipTransportCO Id Conn :=
  s.removeConnection (s.connectionId c)

/-- `halt`: all connections of the table are halted, and stay there. -/
def halt (s : SipTransportCO Id Conn) : SipTransportCO Id Conn :=
  s.connections.foldl (fun s p => s.haltConnection p.2) s

/-! ## Histories -/

/-- The steps: a connection is added, where the table is enumerated in some order; an id is removed;
the thread of a connection calls back, and then leaves its socket; a connection is used; and all are
halted. -/
inductive Event (Id Conn : Type) where
  | add (c : Conn) (now : ℤ) (order : List Conn)
  | remove (k : Id)
  | terminated (c : Conn)
  | close (c : Conn)
  | use (c : Conn) (now : ℤ)
  | halt

/-- The step can be taken. -/
def Enabled (s : SipTransportCO Id Conn) : Event Id Conn → Prop
  | .add _ _ order => order.Perm (s.connections.map Prod.snd)
  | .terminated c => s.closed c = false
  | _ => True

/-- What the step does. -/
def apply (s : SipTransportCO Id Conn) : Event Id Conn → SipTransportCO Id Conn
  | .add c now order => s.addConnection c now order
  | .remove k => s.removeConnection k
  | .terminated c => s.processConnectionTerminated c
  | .close c => { s with closed := Function.update s.closed c true }
  | .use c now => { s with lastTime := Function.update s.lastTime c now }
  | .halt => s.halt

/-- The histories: each step, with the state before it. -/
inductive History (s₀ : SipTransportCO Id Conn) :
    List (SipTransportCO Id Conn × Event Id Conn) → SipTransportCO Id Conn → Prop where
  | nil : History s₀ [] s₀
  | snoc {steps : List (SipTransportCO Id Conn × Event Id Conn)} {s : SipTransportCO Id Conn}
      {e : Event Id Conn} :
      History s₀ steps s → s.Enabled e → History s₀ (steps ++ [(s, e)]) (s.apply e)

/-- Why a connection leaves the table: it has terminated, it is replaced, the table is full and it is
chosen, or its id is removed. -/
inductive Leaves (s : SipTransportCO Id Conn) (d : Conn) : Event Id Conn → Prop where
  | terminated : Leaves s d (.terminated d)
  | replaced (c : Conn) (now : ℤ) (order : List Conn) :
      s.get (s.connectionId c) = some d → Leaves s d (.add c now order)
  | evicted (c : Conn) (now : ℤ) (order : List Conn) (k : Id) :
      s.get (s.connectionId c) = none → s.nmaxConnections ≤ s.connections.length →
      s.olderId now order = some k → s.get k = some d → Leaves s d (.add c now order)
  | removed (k : Id) : s.get k = some d → Leaves s d (.remove k)

/-- The step is proper: a connection leaves the table for one of these reasons only, and when a
connection calls back, no other one is removed or halted. -/
structure Proper (s : SipTransportCO Id Conn) (e : Event Id Conn) : Prop where
  leaves : ∀ k d, s.get k = some d → (s.apply e).get k ≠ some d → Leaves s d e
  callback : ∀ c, e = .terminated c → ∀ k d, s.get k = some d → d ≠ c →
    (s.apply e).get k = some d ∧ (s.apply e).halted d = s.halted d

/-! ## The table -/

section Table

variable {s : SipTransportCO Id Conn}

omit [DecidableEq Conn] in
theorem get_erase (s : SipTransportCO Id Conn) (k k' : Id) :
    (s.erase k).get k' = if k' = k then none else s.get k' := by
  unfold get erase
  dsimp only
  by_cases hk : k' = k
  · have hnone : (s.connections.filter (·.1 ≠ k)).find? (·.1 = k') = none := by
      rw [List.find?_eq_none]
      intro p hp
      have hne := (List.mem_filter.mp hp).2
      rw [hk]
      simpa using hne
    rw [if_pos hk, hnone]
    rfl
  · have hsame : (s.connections.filter (·.1 ≠ k)).find? (·.1 = k') =
        s.connections.find? (·.1 = k') := by
      rw [List.find?_filter]
      congr 1
      funext p
      by_cases hp : p.1 = k'
      · simp [hp, hk]
      · simp [hp]
    rw [if_neg hk, hsame]

omit [DecidableEq Conn] in
theorem get_put {k : Id} (h : s.get k = none) (c : Conn) (k' : Id) :
    (s.put k c).get k' = if k' = k then some c else s.get k' := by
  unfold get put at *
  rw [Option.map_eq_none_iff] at h
  dsimp only
  rw [List.find?_append]
  by_cases hk : k' = k
  · rw [if_pos hk, hk, h]
    simp
  · have hnone : [(k, c)].find? (·.1 = k') = none := by
      rw [List.find?_eq_none]
      intro p hp
      rw [List.mem_singleton.mp hp]
      simpa using fun h : k = k' => hk h.symm
    rw [if_neg hk, hnone, Option.or_none]

omit [DecidableEq Id] in
theorem connections_haltConnection (s : SipTransportCO Id Conn) (c : Conn) :
    (s.haltConnection c).connections = s.connections := by
  unfold haltConnection
  split <;> rfl

theorem get_haltConnection (s : SipTransportCO Id Conn) (c : Conn) (k : Id) :
    (s.haltConnection c).get k = s.get k := by
  unfold get
  rw [connections_haltConnection]

omit [DecidableEq Id] in
theorem halted_haltConnection {c d : Conn} (h : d ≠ c) :
    (s.haltConnection c).halted d = s.halted d := by
  unfold haltConnection
  split
  · rfl
  · exact Function.update_of_ne h ..

/-- **What `removeConnection` leaves.** -/
theorem get_removeConnection (s : SipTransportCO Id Conn) (k k' : Id) :
    (s.removeConnection k).get k' = if k' = k then none else s.get k' := by
  unfold removeConnection
  cases hk : s.get k with
  | none =>
    by_cases heq : k' = k
    · rw [if_pos heq, heq]
      exact hk
    · rw [if_neg heq]
  | some c =>
    dsimp only
    rw [get_haltConnection, get_erase]

/-- Only the connection that is removed is halted. -/
theorem halted_removeConnection {k : Id} {d : Conn} (h : s.get k ≠ some d) :
    (s.removeConnection k).halted d = s.halted d := by
  unfold removeConnection
  cases hk : s.get k with
  | none => rfl
  | some c =>
    have hne : d ≠ c := by
      rintro rfl
      exact h hk
    exact halted_haltConnection hne

/-- What leaves the table to make room. -/
theorem get_makeRoom (s : SipTransportCO Id Conn) (k : Id) (now : ℤ) (order : List Conn) :
    (s.makeRoom k now order).get k = none ∧ ∀ k' d, s.get k' = some d →
      (s.makeRoom k now order).get k' = some d ∨ k' = k ∨
        s.get k = none ∧ s.nmaxConnections ≤ s.connections.length ∧
          s.olderId now order = some k' := by
  unfold makeRoom
  cases hk : s.get k with
  | some old =>
    dsimp only
    refine ⟨?_, fun k' d hk' => ?_⟩
    · rw [get_erase, if_pos rfl]
    · by_cases heq : k' = k
      · exact .inr (.inl heq)
      · rw [get_erase, if_neg heq, get_haltConnection]
        exact .inl hk'
  | none =>
    dsimp only
    split
    · rename_i hfull
      cases holder : s.olderId now order with
      | none => exact ⟨hk, fun k' d hk' => .inl hk'⟩
      | some older =>
        dsimp only
        refine ⟨?_, fun k' d hk' => ?_⟩
        · rw [get_removeConnection, hk]
          split <;> rfl
        · by_cases heq : k' = older
          · rw [heq]
            exact .inr (.inr ⟨rfl, hfull, rfl⟩)
          · rw [get_removeConnection, if_neg heq]
            exact .inl hk'
    · exact ⟨hk, fun k' d hk' => .inl hk'⟩

omit [DecidableEq Id] in
theorem connections_halt (s : SipTransportCO Id Conn) : s.halt.connections = s.connections := by
  have hall (ps : List (Id × Conn)) (s : SipTransportCO Id Conn) :
      (ps.foldl (fun s p => s.haltConnection p.2) s).connections = s.connections := by
    induction ps generalizing s with
    | nil => rfl
    | cons p ps ih => rw [List.foldl_cons, ih, connections_haltConnection]
  exact hall s.connections s

end Table

/-! ## Proper steps -/

/-- A connection that calls back still has its socket, and so its id. -/
theorem apply_terminated {s : SipTransportCO Id Conn} {c : Conn} (h : s.Enabled (.terminated c)) :
    s.apply (.terminated c) = s.removeConnection (s.remoteId c) := by
  have hclosed : s.closed c = false := h
  have hid : s.connectionId c = s.remoteId c := if_neg (by rw [hclosed]; decide)
  show s.removeConnection (s.connectionId c) = _
  rw [hid]

/-- **One step is proper if and only if**, when a connection calls back, the connection that is
registered under its id is itself, or there is none. -/
theorem proper_step_iff {s : SipTransportCO Id Conn} {e : Event Id Conn} (he : s.Enabled e) :
    Proper s e ↔ ∀ c, e = .terminated c →
      s.get (s.remoteId c) = none ∨ s.get (s.remoteId c) = some c := by
  constructor
  · rintro h c rfl
    by_contra hnot
    rw [not_or] at hnot
    obtain ⟨d, hd⟩ := Option.ne_none_iff_exists'.mp hnot.1
    have hne : d ≠ c := by
      rintro rfl
      exact hnot.2 hd
    have hkept := (h.callback c rfl _ d hd hne).1
    rw [apply_terminated he, get_removeConnection, if_pos rfl] at hkept
    exact nomatch hkept
  · intro h
    refine ⟨fun k d hk hgone => ?_, ?_⟩
    · cases e with
      | add c now order =>
        obtain ⟨hroom, hothers⟩ := get_makeRoom s (s.connectionId c) now order
        have happly : s.apply (.add c now order) =
            (s.makeRoom (s.connectionId c) now order).put (s.connectionId c) c := rfl
        rw [happly, get_put hroom] at hgone
        by_cases heq : k = s.connectionId c
        · exact .replaced c now order (heq ▸ hk)
        · rw [if_neg heq] at hgone
          rcases hothers k d hk with hsame | hself | ⟨hnone, hfull, holder⟩
          · exact absurd hsame hgone
          · exact absurd hself heq
          · exact .evicted c now order k hnone hfull holder hk
      | remove k' =>
        rw [show s.apply (.remove k') = s.removeConnection k' from rfl,
          get_removeConnection] at hgone
        by_cases heq : k = k'
        · exact .removed k' (heq ▸ hk)
        · rw [if_neg heq] at hgone
          exact absurd hk hgone
      | terminated c =>
        rw [apply_terminated he, get_removeConnection] at hgone
        by_cases heq : k = s.remoteId c
        · have hself : s.get (s.remoteId c) = some d := heq ▸ hk
          rcases h c rfl with hnone | hsome
          · rw [hnone] at hself
            exact nomatch hself
          · rw [hsome] at hself
            rw [← Option.some.inj hself]
            exact .terminated
        · rw [if_neg heq] at hgone
          exact absurd hk hgone
      | close c => exact absurd hk hgone
      | use c now => exact absurd hk hgone
      | halt =>
        have hsame : (s.apply .halt).get k = s.get k := by
          unfold get
          rw [show (s.apply .halt).connections = s.connections from connections_halt s]
        exact absurd (hsame.trans hk) hgone
    · rintro c rfl k d hk hne
      have hother : s.get (s.remoteId c) ≠ some d := fun hsome => by
        rcases h c rfl with hnone | hself
        · rw [hnone] at hsome
          exact nomatch hsome
        · rw [hself] at hsome
          exact hne (Option.some.inj hsome).symm
      have hkey : k ≠ s.remoteId c := by
        rintro rfl
        exact hother hk
      rw [apply_terminated he, get_removeConnection, if_neg hkey]
      exact ⟨hk, halted_removeConnection hother⟩

/-- **All steps of a history are proper if and only if**, whenever a connection calls back, the
connection that is registered under its id is itself, or there is none. -/
theorem proper_iff {s₀ s : SipTransportCO Id Conn}
    {steps : List (SipTransportCO Id Conn × Event Id Conn)} (h : History s₀ steps s) :
    (∀ p ∈ steps, Proper p.1 p.2) ↔ ∀ p ∈ steps, ∀ c, p.2 = .terminated c →
      p.1.get (p.1.remoteId c) = none ∨ p.1.get (p.1.remoteId c) = some c := by
  induction h with
  | nil => exact ⟨fun _ p hp => absurd hp List.not_mem_nil, fun _ p hp => absurd hp List.not_mem_nil⟩
  | @snoc steps s e _ he ih =>
    have hstep := proper_step_iff he
    constructor
    · intro hall p hp
      rcases List.mem_append.mp hp with hp' | hp'
      · exact ih.mp (fun q hq => hall q (List.mem_append_left _ hq)) p hp'
      · rw [List.mem_singleton.mp hp'] at hp ⊢
        exact hstep.mp (hall _ hp)
    · intro hall p hp
      rcases List.mem_append.mp hp with hp' | hp'
      · exact ih.mpr (fun q hq => hall q (List.mem_append_left _ hq)) p hp'
      · rw [List.mem_singleton.mp hp'] at hp ⊢
        exact hstep.mpr (hall _ hp)

/-- A transport with connections to one remote end point. -/
def onePeer : SipTransportCO ℕ ℕ where
  nmaxConnections := 8
  remoteId _ := 7
  nullId := 0

/-- A connection is added, and terminates. -/
theorem history_terminated : History onePeer [(onePeer, .add 1 0 []),
    (onePeer.apply (.add 1 0 []), .terminated 1)]
    ((onePeer.apply (.add 1 0 [])).apply (.terminated 1)) := by
  have hadd : History onePeer [(onePeer, .add 1 0 [])] (onePeer.apply (.add 1 0 [])) :=
    .snoc .nil (show onePeer.Enabled (.add 1 0 []) from List.Perm.refl [])
  exact hadd.snoc (show Enabled _ (.terminated 1) from rfl)

/-- A connection that terminates leaves the table, and nothing else happens. -/
theorem proper_iff_terminated : Proper onePeer (.add 1 0 []) ∧
    Proper (onePeer.apply (.add 1 0 [])) (.terminated 1) := by
  have hall := (proper_iff history_terminated).mpr fun p hp c hc => by
    rcases List.mem_cons.mp hp with rfl | hp
    · exact nomatch hc
    · rw [List.mem_singleton.mp hp] at hc ⊢
      obtain rfl : 1 = c := Event.terminated.inj hc
      exact .inr rfl
  exact ⟨hall _ (List.mem_cons_self ..), hall _ (List.mem_cons_of_mem _ (List.mem_singleton_self _))⟩

/-- The first connection is removed, and a second one is added for the same remote end point. -/
def replacedByTwo : SipTransportCO ℕ ℕ :=
  ((onePeer.apply (.add 1 0 [])).apply (.remove 7)).apply (.add 2 0 [])

/-- **When the first connection calls back, the second one is removed and halted.** -/
theorem replacedByTwo_removed :
    History onePeer [(onePeer, .add 1 0 []), (onePeer.apply (.add 1 0 []), .remove 7),
        ((onePeer.apply (.add 1 0 [])).apply (.remove 7), .add 2 0 []),
        (replacedByTwo, .terminated 1)] (replacedByTwo.apply (.terminated 1)) ∧
      replacedByTwo.get 7 = some 2 ∧ (replacedByTwo.apply (.terminated 1)).get 7 = none ∧
      (replacedByTwo.apply (.terminated 1)).halted 2 = true ∧
      ¬Proper replacedByTwo (.terminated 1) := by
  refine ⟨?_, rfl, rfl, rfl, fun h => ?_⟩
  · have hadd : History onePeer [(onePeer, .add 1 0 [])] (onePeer.apply (.add 1 0 [])) :=
      .snoc .nil (show onePeer.Enabled (.add 1 0 []) from List.Perm.refl [])
    have hremove := hadd.snoc (show Enabled _ (.remove 7) from trivial)
    have hagain := hremove.snoc (show Enabled _ (.add 2 0 []) from List.Perm.refl [])
    exact hagain.snoc (show replacedByTwo.Enabled (.terminated 1) from rfl)
  · exact nomatch (h.callback 1 rfl 7 2 rfl (by decide)).1

end SipTransportCO

end SoftPhone
