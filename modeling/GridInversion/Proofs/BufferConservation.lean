import GridInversion.MachineScalar
import GridInversion.Proofs.BufferAccounts

namespace GridInversion.Ledger

variable {α : Type} [Scalar α]

omit [Scalar α] in
def ending (l : Ledger α) (name : String) : List (Transfer α) :=
  (l.leases.get? name).toList.map .ended

/-- The leases that a step begins and ends, in their order.  A lease that is put under a name
in use ends the one that was there. -/
def transfers (l : Ledger α) : Step α → List (Transfer α)
  | .alloc i name | .lease i name =>
      if l.available.getD i 0 = 0 then [] else .taken i :: l.ending name
  | .drop name => l.ending name
  | .move source target =>
      if source = target ∨ l.leases.get? source = none then [] else l.ending target
  | _ => []

def run (l : Ledger α) : List (Step α) → Ledger α
  | [] => l
  | step :: rest => (l.step step).1.run rest

def history (l : Ledger α) : List (Step α) → List (Transfer α)
  | [] => []
  | step :: rest => l.transfers step ++ (l.step step).1.history rest

/-- The accounts of a ledger hold, with the leases under its names for those that are out. -/
structure Reconciled (plan : List (Nat × Shape)) (past : List (Transfer α)) (l : Ledger α) :
    Prop where
  distinct : l.leases.Distinct
  accounts : Accounts plan past (l.leases.values.map Lease.pool) l.pools l.lost

namespace Reconciled

variable {plan : List (Nat × Shape)} {past : List (Transfer α)} {l : Ledger α}

theorem store (hdistinct : l.leases.Distinct) (lease : Lease α)
    (h : Accounts plan past (lease.pool :: l.leases.values.map Lease.pool) l.pools l.lost)
    (name : String) : Reconciled plan (past ++ l.ending name) (l.store name lease) := by
  have hperm := (hdistinct.map_values_perm name Lease.pool).cons lease.pool
  rcases hold : l.leases.get? name with _ | old
  · rw [hold] at hperm
    simp only [Ledger.store, ending, hold, Option.toList_none, List.map_nil, List.append_nil]
    exact ⟨hdistinct.put name lease, h.perm hperm⟩
  · rw [hold] at hperm
    -- The new lease is out before the old one ends, so both are among the pools here.
    have hout := (h.perm hperm).perm (List.Perm.swap old.pool lease.pool _)
    simp only [Ledger.store, ending, hold, Option.toList_some, List.map_cons, List.map_nil]
    refine ⟨?_, ?_⟩
    · rw [leases_giveBack]
      exact hdistinct.put name lease
    · rw [leases_giveBack]
      exact Accounts.giveBack (l := { l with leases := l.leases.put name lease }) hout

theorem takeFrom (h : Reconciled plan past l) (i : Nat) (name : String) (exhausted : Reply α) :
    Reconciled plan
      (past ++ if l.available.getD i 0 = 0 then [] else .taken i :: l.ending name)
      (l.takeFrom i name exhausted).1 := by
  have havailable : l.available.getD i 0 = (l.pools[i]?.map Pool.available).getD 0 := by
    simp [available]
  rw [havailable, Ledger.takeFrom]
  rcases hpool : l.pools[i]? with _ | pool
  · simpa using h
  · rcases htake : pool.take? with _ | ⟨m, rest⟩
    · have hzero := Pool.take?_eq_none_iff.mp htake
      simpa [htake, hzero] using h
    · have hpos : pool.available ≠ 0 := by
        intro hzero
        rw [Pool.take?_eq_none_iff.mpr hzero] at htake
        cases htake
      have htaken := h.accounts.take hpool htake
      have hstore : Reconciled plan (past ++ [.taken i] ++ l.ending name) _ :=
        store (l := { l with pools := l.pools.setIfInBounds i rest }) h.distinct ⟨i, m⟩ htaken name
      simpa [htake, hpos] using hstore

theorem erase (h : Reconciled plan past l) {name : String} {lease : Lease α}
    (hlease : l.leases.get? name = some lease) :
    (l.leases.erase name).Distinct ∧
      Accounts plan past (lease.pool :: (l.leases.erase name).values.map Lease.pool) l.pools
        l.lost := by
  have hperm := h.distinct.map_values_perm name Lease.pool
  rw [hlease] at hperm
  exact ⟨h.distinct.erase name, h.accounts.perm hperm⟩

theorem drop (h : Reconciled plan past l) (name : String) :
    Reconciled plan (past ++ l.ending name) (l.step (.drop name)).1 := by
  rcases hlease : l.leases.get? name with _ | lease
  · simpa [Ledger.step, ending, hlease] using h
  · obtain ⟨hdistinct, haccounts⟩ := h.erase hlease
    simp only [Ledger.step, ending, hlease, Option.toList_some, List.map_cons, List.map_nil]
    refine ⟨?_, ?_⟩
    · rw [leases_giveBack]
      exact hdistinct
    · rw [leases_giveBack]
      exact Accounts.giveBack (l := { l with leases := l.leases.erase name }) haccounts

theorem move (h : Reconciled plan past l) (source target : String) :
    Reconciled plan (past ++ l.transfers (.move source target))
      (l.step (.move source target)).1 := by
  rcases hlease : l.leases.get? source with _ | lease
  · simpa [Ledger.step, transfers, hlease] using h
  · by_cases hsame : source = target
    · subst hsame
      simpa [Ledger.step, transfers, hlease] using h
    · obtain ⟨hdistinct, haccounts⟩ := h.erase hlease
      have hending : ({ l with leases := l.leases.erase source } : Ledger α).ending target =
          l.ending target := by
        rw [ending, Registry.get?_erase_of_ne _ (Ne.symm hsame), ending]
      have hstore := store (l := { l with leases := l.leases.erase source }) hdistinct lease
        haccounts target
      rw [hending] at hstore
      simpa [Ledger.step, transfers, hlease, hsame] using hstore

/-- What is done to the matrices of leases leaves the accounts alone. -/
theorem put (h : Reconciled plan past l) {name : String} {old : Lease α}
    (hold : l.leases.get? name = some old) (lease : Lease α) (hpool : lease.pool = old.pool) :
    Reconciled plan past { l with leases := l.leases.put name lease } :=
  ⟨h.distinct.put name lease,
    h.accounts.perm (h.distinct.map_values_put hold (f := Lease.pool) hpool).symm⟩

theorem modify (h : Reconciled plan past l) (name : String)
    (f : Matrix α → Except Fault (Matrix α)) : Reconciled plan past (l.modify name f).1 := by
  unfold Ledger.modify
  split
  · exact h
  · rename_i lease hlease
    split
    · exact h.put hlease _ rfl
    · exact h

theorem inspect (h : Reconciled plan past l) (name : String) (f : Matrix α → Reply α) :
    Reconciled plan past (l.inspect name f).1 := by
  unfold Ledger.inspect
  split <;> exact h

theorem swap (h : Reconciled plan past l) (first second : String) :
    Reconciled plan past (l.step (.swap first second)).1 := by
  rcases hfirst : l.leases.get? first with _ | a
  · simpa [Ledger.step, hfirst] using h
  · rcases hsecond : l.leases.get? second with _ | b
    · simpa [Ledger.step, hfirst, hsecond] using h
    · have hput : Reconciled plan past
          { l with leases := l.leases.put first { a with matrix := b.matrix } } :=
        h.put hfirst _ rfl
      have hsecond' : ∃ b', (l.leases.put first { a with matrix := b.matrix }).get? second =
          some b' ∧ b'.pool = b.pool := by
        by_cases hsame : second = first
        · subst hsame
          obtain rfl := Option.some_inj.mp (hfirst.symm.trans hsecond)
          exact ⟨_, Registry.get?_put_self _ _ _, rfl⟩
        · exact ⟨b, by rw [Registry.get?_put_of_ne _ hsame, hsecond], rfl⟩
      obtain ⟨b', hb', hpool⟩ := hsecond'
      simpa [Ledger.step, hfirst, hsecond] using
        hput.put hb' { b with matrix := a.matrix } hpool.symm

theorem without_transfers (h : Reconciled plan past l) : Reconciled plan (past ++ []) l := by
  rwa [List.append_nil]

/-- One step keeps the accounts, whatever it does to the matrices of the leases. -/
theorem step (h : Reconciled plan past l) (s : Step α) :
    Reconciled plan (past ++ l.transfers s) (l.step s).1 := by
  cases s with
  | alloc i name => exact h.takeFrom i name _
  | lease i name => exact h.takeFrom i name _
  | drop name => exact h.drop name
  | move source target => exact h.move source target
  | swap first second => exact (h.swap first second).without_transfers
  | shape i =>
      refine without_transfers ?_
      rw [Ledger.step]
      split <;> exact h
  | copy name => exact (h.inspect name _).without_transfers
  | get name r c => exact (h.inspect name _).without_transfers
  | set name r c v => exact (h.modify name _).without_transfers
  | fill name v => exact (h.modify name _).without_transfers
  | resize name size v => exact (h.modify name _).without_transfers
  | reshape name shape => exact (h.modify name _).without_transfers
  | replace name m => exact (h.modify name _).without_transfers

theorem run (h : Reconciled plan past l) (steps : List (Step α)) :
    Reconciled plan (past ++ l.history steps) (l.run steps) := by
  induction steps generalizing past l with
  | nil => simpa [history, Ledger.run] using h
  | cons s rest ih =>
      rw [history, Ledger.run, ← List.append_assoc]
      exact ih (h.step s)

end Reconciled

omit [Scalar α] in
def live (l : Ledger α) (i : Nat) : Nat := l.leases.values.countP (·.pool = i)

omit [Scalar α] in
theorem count_pools_values (l : Ledger α) (i : Nat) :
    (l.leases.values.map Lease.pool).count i = l.live i := by
  rw [List.count_eq_countP, List.countP_map, live]
  rfl

theorem reconciled_new (plan : List (Nat × Shape)) : Reconciled plan [] (new plan : Ledger α) := by
  refine ⟨Registry.distinct_empty, by simp [new], ?_, fun {i capacity shape} hi => ⟨capacity, ?_⟩⟩
  · simp [new, Registry.values, Registry.empty]
  · constructor
    · simp [new, hi, Pool.new, Transfer.returned]
    · simp [new, Registry.values, Registry.empty, Transfer.returned, Transfer.misshapen]
    · simp [new, Transfer.misshapen]

variable {plan : List (Nat × Shape)} {past : List (Transfer α)} {l : Ledger α} {i capacity : Nat}
  {shape : Shape}

/-- What the next lease of pool `i` gets: the buffer that came back last and was not taken
since, wiped, and one never taken if there is none. -/
def nextBuffer (i : Nat) (shape : Shape) (past : List (Transfer α)) : Matrix α :=
  ((Transfer.returned i shape past).head?.map Matrix.wipe).getD (Matrix.zeros shape)

theorem exists_account (plan : List (Nat × Shape)) (steps : List (Step α))
    (hi : plan[i]? = some (capacity, shape)) :
    ∃ untouched, PoolAccount i capacity shape ((new plan).history steps)
      (((new plan).run steps).leases.values.map Lease.pool) ((new plan).run steps).pools
      ((new plan).run steps).lost untouched := by
  have hrun := (reconciled_new plan).run steps
  rw [List.nil_append] at hrun
  exact hrun.accounts.account hi

theorem takeFrom_reply {out : List Nat} {lost : List Nat} {untouched : Nat}
    (h : PoolAccount i capacity shape past out l.pools lost untouched) {pool : Pool α}
    (hpool : l.pools[i]? = some pool) (name : String) (exhausted : Reply α) :
    (l.takeFrom i name exhausted).2 =
      if pool.available = 0 then exhausted else .matrix (nextBuffer i shape past) := by
  obtain rfl := Option.some_inj.mp (hpool.symm.trans h.pool)
  rw [takeFrom, hpool, nextBuffer, Pool.available]
  rcases Transfer.returned i shape past with _ | ⟨latest, others⟩
  · rcases untouched with _ | untouched
    · simp [Pool.take?]
    · simp [Pool.take?, List.replicate_succ]
  · simp [Pool.take?]

/-- In every state that steps can lead to, the free buffers of a pool, its leases and the
buffers that came back in another shape make up its capacity.  The free buffers have the shape
of the pool and are zero.  A lease is refused exactly if no buffer is free, and otherwise gets
the one that came back last. -/
theorem conservation (plan : List (Nat × Shape)) (steps : List (Step α))
    (hi : plan[i]? = some (capacity, shape)) :
    let l : Ledger α := (new plan).run steps
    let past : List (Transfer α) := (new plan).history steps
    ∃ pool, l.pools[i]? = some pool ∧ pool.shape = shape ∧
      pool.available + l.live i + Transfer.misshapen i shape past = capacity ∧
      l.lost.count i = Transfer.misshapen i shape past ∧
      (∀ buffer ∈ pool.free, buffer.shape = shape ∧ ∀ x ∈ buffer.data, x = 0) ∧
      ∀ name,
        ((l.step (.alloc i name)).2 = .nothing ↔ pool.available = 0) ∧
        ((l.step (.lease i name)).2 = .fault (.error .poolExhausted) ↔ pool.available = 0) ∧
        (pool.available ≠ 0 →
          (l.step (.alloc i name)).2 = .matrix (nextBuffer i shape past) ∧
          (l.step (.lease i name)).2 = .matrix (nextBuffer i shape past)) := by
  intro l past
  obtain ⟨untouched, haccount⟩ : ∃ untouched, PoolAccount i capacity shape past
      (l.leases.values.map Lease.pool) l.pools l.lost untouched := exists_account plan steps hi
  have halloc (name : String) : (l.step (.alloc i name)).2 = _ :=
    takeFrom_reply haccount haccount.pool name .nothing
  have hlease (name : String) : (l.step (.lease i name)).2 = _ :=
    takeFrom_reply haccount haccount.pool name (.fault (.error .poolExhausted))
  refine ⟨_, haccount.pool, rfl, ?_, haccount.lost, fun _ => haccount.free_clean haccount.pool,
    fun name => ?_⟩
  · rw [← haccount.balance, count_pools_values]
    simp [Pool.available]
  · rw [halloc, hlease]
    split <;> simp_all

/-- Two pools exchange a matrix through their leases, and one of the leases ends. -/
theorem conservation_after_swap :
    let plan : List (Nat × Shape) := [(2, ⟨1, 2⟩), (1, ⟨2, 1⟩)]
    let steps : List (Step Float) :=
      [.alloc 0 "a", .lease 1 "b", .swap "a" "b", .drop "a", .fill "b" 7, .alloc 0 "c", .drop "c"]
    plan[0]? = some (2, ⟨1, 2⟩) ∧
      ∃ pool, ((new plan).run steps).pools[0]? = some pool ∧ pool.available = 1 ∧
        ((new plan).run steps).live 0 = 0 ∧
        Transfer.misshapen 0 ⟨1, 2⟩ ((new plan).history steps) = 1 ∧
        (((new plan).run steps).step (.alloc 0 "d")).2 =
          .matrix (nextBuffer 0 ⟨1, 2⟩ ((new plan).history steps)) := by
  intro plan steps
  have hplan : plan[0]? = some (2, ⟨1, 2⟩) := rfl
  obtain ⟨pool, hpool, -, hbalance, -, -, hnext⟩ := conservation plan steps hplan
  have hlive : ((new plan).run steps).live 0 = 0 := by decide +kernel
  have hlost : Transfer.misshapen 0 ⟨1, 2⟩ ((new plan).history steps) = 1 := by decide +kernel
  have havailable : pool.available = 1 := by omega
  exact ⟨hplan, pool, hpool, havailable, hlive, hlost, ((hnext "d").2.2 (by omega)).1⟩

end GridInversion.Ledger
