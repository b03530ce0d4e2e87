import Mathlib.Data.List.Count
import Mathlib.Data.List.Induction
import GridInversion.Buffer.Ledger
import GridInversion.Proofs.RegistryContents

namespace GridInversion

variable {α : Type}

/-- A lease begins, or it ends with the matrix that it holds by then. -/
inductive Transfer (α : Type) where
  | taken (pool : Nat)
  | ended (lease : Lease α)

namespace Transfer

def pool : Transfer α → Nat
  | taken pool => pool
  | ended lease => lease.pool

def isMisshapen (i : Nat) (shape : Shape) : Transfer α → Bool
  | taken _ => false
  | ended lease => lease.pool = i ∧ lease.matrix.shape ≠ shape

def misshapen (i : Nat) (shape : Shape) (past : List (Transfer α)) : Nat :=
  past.countP (isMisshapen i shape)

/-- The returned buffers of pool `i` after one more transfer: a lease that begins takes the
first of them, and a matrix of the pool's shape that comes back is put before them. -/
def turnover (i : Nat) (shape : Shape) (buffers : List (Matrix α)) :
    Transfer α → List (Matrix α)
  | taken pool => if pool = i then buffers.tail else buffers
  | ended lease =>
      if lease.pool = i ∧ lease.matrix.shape = shape then lease.matrix :: buffers else buffers

/-- The buffers of pool `i` that came back and have not been taken since, the latest first,
as they were when their leases ended. -/
def returned (i : Nat) (shape : Shape) (past : List (Transfer α)) : List (Matrix α) :=
  past.foldl (turnover i shape) []

variable (i : Nat) (shape : Shape) (past : List (Transfer α)) {t : Transfer α} {lease : Lease α}

theorem misshapen_concat (t : Transfer α) :
    misshapen i shape (past ++ [t]) =
      misshapen i shape past + if t.isMisshapen i shape then 1 else 0 := by
  rw [misshapen, List.countP_append, List.countP_singleton, misshapen]

theorem returned_concat (t : Transfer α) :
    returned i shape (past ++ [t]) = t.turnover i shape (returned i shape past) := by
  rw [returned, List.foldl_concat, returned]

variable {i shape past}

theorem isMisshapen_of_pool_ne (h : t.pool ≠ i) : t.isMisshapen i shape = false := by
  cases t with
  | taken pool => rfl
  | ended lease => exact decide_eq_false fun hlease => h hlease.1

theorem turnover_of_pool_ne (h : t.pool ≠ i) (buffers : List (Matrix α)) :
    t.turnover i shape buffers = buffers := by
  cases t with
  | taken pool => exact if_neg h
  | ended lease => exact if_neg fun hlease => h hlease.1

/-- Each returned buffer is the matrix with which some lease of the pool ended. -/
theorem exists_ended_of_mem_returned {b : Matrix α} (h : b ∈ returned i shape past) :
    b.shape = shape ∧ ∃ lease, .ended lease ∈ past ∧ lease.pool = i ∧ lease.matrix = b := by
  induction past using List.reverseRecOn with
  | nil => cases h
  | append_singleton past t ih =>
      have hearlier : b ∈ returned i shape past →
          b.shape = shape ∧
            ∃ lease, .ended lease ∈ past ++ [t] ∧ lease.pool = i ∧ lease.matrix = b := by
        intro hb
        obtain ⟨hshape, lease, hended, hlease⟩ := ih hb
        exact ⟨hshape, lease, List.mem_append_left _ hended, hlease⟩
      rw [returned_concat] at h
      cases t with
      | taken pool =>
          simp only [turnover] at h
          split at h
          · exact hearlier (List.mem_of_mem_tail h)
          · exact hearlier h
      | ended lease =>
          simp only [turnover] at h
          split at h
          · rename_i hlease
            rcases List.mem_cons.mp h with rfl | h
            · exact ⟨hlease.2, lease, by simp, hlease.1, rfl⟩
            · exact hearlier h
          · exact hearlier h

end Transfer

namespace Matrix

variable [Scalar α] {x : α}

theorem eq_zero_of_mem_wipe {m : Matrix α} (hx : x ∈ m.wipe.data) : x = 0 := by
  obtain ⟨y, -, rfl⟩ := Array.mem_map.mp hx
  rfl

theorem eq_zero_of_mem_zeros {s : Shape} (hx : x ∈ (zeros s : Matrix α).data) : x = 0 :=
  (Array.mem_replicate.mp hx).2

end Matrix

namespace Ledger

variable [Scalar α] {l : Ledger α} {lease : Lease α} {pool : Pool α}

theorem giveBack_of_shape_eq (hpool : l.pools[lease.pool]? = some pool)
    (hshape : lease.matrix.shape = pool.shape) :
    l.giveBack lease =
      { l with pools := l.pools.setIfInBounds lease.pool (pool.release lease.matrix) } := by
  simp [giveBack, hpool, hshape]

theorem giveBack_of_shape_ne (hpool : l.pools[lease.pool]? = some pool)
    (hshape : lease.matrix.shape ≠ pool.shape) :
    l.giveBack lease = { l with lost := lease.pool :: l.lost } := by
  simp [giveBack, hpool, hshape]

theorem leases_giveBack (l : Ledger α) (lease : Lease α) :
    (l.giveBack lease).leases = l.leases := by
  unfold giveBack
  split
  · rfl
  · split <;> rfl

end Ledger

/-- How the state of pool `i` follows from the past: the buffers that came back lie on top,
wiped, and those never taken below.  Together with the leases that are out and the buffers
that were lost they make up the capacity. -/
structure PoolAccount [Scalar α] (i capacity : Nat) (shape : Shape) (past : List (Transfer α))
    (out : List Nat) (pools : Array (Pool α)) (lost : List Nat) (untouched : Nat) : Prop where
  pool : pools[i]? = some ⟨shape, (Transfer.returned i shape past).map Matrix.wipe ++
    List.replicate untouched (Matrix.zeros shape)⟩
  balance : (Transfer.returned i shape past).length + untouched + out.count i +
    Transfer.misshapen i shape past = capacity
  lost : lost.count i = Transfer.misshapen i shape past

namespace PoolAccount

variable [Scalar α] {i capacity : Nat} {shape : Shape} {past : List (Transfer α)}
  {out : List Nat} {pools : Array (Pool α)} {lost : List Nat} {untouched : Nat}

theorem of_pool_ne (h : PoolAccount i capacity shape past out pools lost untouched)
    {t : Transfer α} (ht : t.pool ≠ i) {out' : List Nat} (hout : out'.count i = out.count i)
    {pools' : Array (Pool α)} (hpools : pools'[i]? = pools[i]?) {lost' : List Nat}
    (hlost : lost'.count i = lost.count i) :
    PoolAccount i capacity shape (past ++ [t]) out' pools' lost' untouched := by
  have hmisshapen := Transfer.misshapen_concat i shape past t
  rw [Transfer.isMisshapen_of_pool_ne ht, if_neg Bool.false_ne_true, Nat.add_zero] at hmisshapen
  have hreturned := Transfer.returned_concat i shape past t
  rw [Transfer.turnover_of_pool_ne ht] at hreturned
  constructor
  · rw [hpools, hreturned, h.pool]
  · rw [hreturned, hmisshapen, hout, h.balance]
  · rw [hlost, hmisshapen, h.lost]

theorem take (h : PoolAccount i capacity shape past out pools lost untouched)
    {pool rest : Pool α} {m : Matrix α} (hpool : pools[i]? = some pool)
    (htake : pool.take? = some (m, rest)) :
    ∃ untouched', PoolAccount i capacity shape (past ++ [.taken i]) (i :: out)
      (pools.setIfInBounds i rest) lost untouched' := by
  obtain ⟨hi, -⟩ := Array.getElem?_eq_some_iff.mp hpool
  have hset : (pools.setIfInBounds i rest)[i]? = some rest := by
    rw [Array.getElem?_setIfInBounds_self_of_lt hi]
  have hmisshapen := Transfer.misshapen_concat i shape past (.taken i)
  have hreturned := Transfer.returned_concat i shape past (.taken i)
  simp only [Transfer.isMisshapen, Transfer.turnover, if_true, Bool.false_eq_true, if_false,
    Nat.add_zero] at hmisshapen hreturned
  have hbalance := h.balance
  obtain rfl := Option.some_inj.mp (hpool.symm.trans h.pool)
  rcases hpast : Transfer.returned i shape past with _ | ⟨latest, others⟩
  · rcases untouched with _ | untouched
    · simp [hpast, Pool.take?] at htake
    · simp only [Pool.take?, hpast, List.map_nil, List.nil_append, List.replicate_succ,
        Option.some_inj, Prod.mk.injEq] at htake
      obtain ⟨-, rfl⟩ := htake
      refine ⟨untouched, ?_, ?_, hmisshapen ▸ h.lost⟩
      · simp [hset, hreturned, hpast]
      · simp only [hreturned, hmisshapen, hpast, List.tail_nil, List.length_nil,
          List.count_cons_self] at hbalance ⊢
        omega
  · simp only [Pool.take?, hpast, List.map_cons, List.cons_append, Option.some_inj,
      Prod.mk.injEq] at htake
    obtain ⟨-, rfl⟩ := htake
    refine ⟨untouched, ?_, ?_, hmisshapen ▸ h.lost⟩
    · simp [hset, hreturned, hpast]
    · simp only [hreturned, hmisshapen, hpast, List.tail_cons, List.length_cons,
        List.count_cons_self] at hbalance ⊢
      omega

theorem release {lease : Lease α} {pool : Pool α}
    (h : PoolAccount lease.pool capacity shape past (lease.pool :: out) pools lost untouched)
    (hpool : pools[lease.pool]? = some pool) (hshape : lease.matrix.shape = shape) :
    PoolAccount lease.pool capacity shape (past ++ [.ended lease]) out
      (pools.setIfInBounds lease.pool (pool.release lease.matrix)) lost untouched := by
  obtain ⟨hi, -⟩ := Array.getElem?_eq_some_iff.mp hpool
  have hmisshapen := Transfer.misshapen_concat lease.pool shape past (.ended lease)
  have hreturned := Transfer.returned_concat lease.pool shape past (.ended lease)
  simp only [Transfer.isMisshapen, Transfer.turnover, hshape, ne_eq, not_true_eq_false, and_false,
    decide_false, Bool.false_eq_true, if_false, Nat.add_zero, and_self, if_true]
    at hmisshapen hreturned
  have hbalance := h.balance
  obtain rfl := Option.some_inj.mp (hpool.symm.trans h.pool)
  refine ⟨?_, ?_, hmisshapen ▸ h.lost⟩
  · simp [Pool.release, hshape, hreturned, Array.getElem?_setIfInBounds_self_of_lt hi]
  · simp only [hreturned, hmisshapen, List.length_cons, List.count_cons_self] at hbalance ⊢
    omega

theorem lose {lease : Lease α}
    (h : PoolAccount lease.pool capacity shape past (lease.pool :: out) pools lost untouched)
    (hshape : lease.matrix.shape ≠ shape) :
    PoolAccount lease.pool capacity shape (past ++ [.ended lease]) out pools
      (lease.pool :: lost) untouched := by
  have hmisshapen := Transfer.misshapen_concat lease.pool shape past (.ended lease)
  have hreturned := Transfer.returned_concat lease.pool shape past (.ended lease)
  simp only [Transfer.isMisshapen, Transfer.turnover, hshape, ne_eq, not_false_eq_true, and_self,
    decide_true, if_true, and_false, if_false] at hmisshapen hreturned
  have hbalance := h.balance
  refine ⟨hreturned ▸ h.pool, ?_, ?_⟩
  · simp only [hreturned, hmisshapen, List.count_cons_self] at hbalance ⊢
    omega
  · rw [List.count_cons_self, hmisshapen, h.lost]

/-- A free buffer has the shape of its pool, and none of its cells is left from a lease. -/
theorem free_clean (h : PoolAccount i capacity shape past out pools lost untouched)
    {pool : Pool α} (hpool : pools[i]? = some pool) {buffer : Matrix α}
    (hbuffer : buffer ∈ pool.free) : buffer.shape = shape ∧ ∀ x ∈ buffer.data, x = 0 := by
  obtain rfl := Option.some_inj.mp (hpool.symm.trans h.pool)
  rcases List.mem_append.mp hbuffer with hwiped | hfresh
  · obtain ⟨b, hb, rfl⟩ := List.mem_map.mp hwiped
    obtain ⟨hshape, -⟩ := Transfer.exists_ended_of_mem_returned hb
    exact ⟨hshape, fun _ => Matrix.eq_zero_of_mem_wipe⟩
  · rw [List.eq_of_mem_replicate hfresh]
    exact ⟨rfl, fun _ => Matrix.eq_zero_of_mem_zeros⟩

end PoolAccount

/-- The accounts of all pools of a plan, which gives the capacity and the shape of each.  The
list `out` names the pool of every lease that has begun and not ended. -/
structure Accounts [Scalar α] (plan : List (Nat × Shape)) (past : List (Transfer α))
    (out : List Nat) (pools : Array (Pool α)) (lost : List Nat) : Prop where
  size : pools.size = plan.length
  known : ∀ i ∈ out, i < plan.length
  account : ∀ {i capacity : Nat} {shape : Shape}, plan[i]? = some (capacity, shape) →
    ∃ untouched, PoolAccount i capacity shape past out pools lost untouched

namespace Accounts

variable [Scalar α] {plan : List (Nat × Shape)} {past : List (Transfer α)} {out out' : List Nat}
  {pools : Array (Pool α)} {lost : List Nat}

theorem perm (h : Accounts plan past out pools lost) (hout : out.Perm out') :
    Accounts plan past out' pools lost := by
  refine ⟨h.size, fun i hi => h.known i (hout.mem_iff.mpr hi), fun {i _ _} hi => ?_⟩
  obtain ⟨untouched, hpool, hbalance, hlost⟩ := h.account hi
  exact ⟨untouched, hpool, hout.count_eq i ▸ hbalance, hlost⟩

theorem take (h : Accounts plan past out pools lost) {i : Nat} {pool rest : Pool α}
    {m : Matrix α} (hpool : pools[i]? = some pool) (htake : pool.take? = some (m, rest)) :
    Accounts plan (past ++ [.taken i]) (i :: out) (pools.setIfInBounds i rest) lost := by
  obtain ⟨hi, -⟩ := Array.getElem?_eq_some_iff.mp hpool
  refine ⟨by rw [Array.size_setIfInBounds, h.size], ?_, fun {j capacity shape} hj => ?_⟩
  · intro j hj
    rcases List.mem_cons.mp hj with rfl | hj
    · exact h.size ▸ hi
    · exact h.known j hj
  · obtain ⟨untouched, haccount⟩ := h.account hj
    by_cases hij : i = j
    · subst hij
      exact haccount.take hpool htake
    · exact ⟨untouched, haccount.of_pool_ne (t := .taken i) hij (List.count_cons_of_ne hij)
        (Array.getElem?_setIfInBounds_ne hij) rfl⟩

theorem giveBack {l : Ledger α} {lease : Lease α}
    (h : Accounts plan past (lease.pool :: out) l.pools l.lost) :
    Accounts plan (past ++ [.ended lease]) out (l.giveBack lease).pools
      (l.giveBack lease).lost := by
  have hknown : ∀ i ∈ out, i < plan.length := fun i hi => h.known i (List.mem_cons_of_mem _ hi)
  obtain ⟨⟨capacity, shape⟩, hplan⟩ : ∃ entry, plan[lease.pool]? = some entry :=
    ⟨_, List.getElem?_eq_getElem (h.known _ List.mem_cons_self)⟩
  obtain ⟨untouched, haccount⟩ := h.account hplan
  by_cases hshape : lease.matrix.shape = shape
  · rw [Ledger.giveBack_of_shape_eq haccount.pool hshape]
    refine ⟨by rw [Array.size_setIfInBounds, h.size], hknown, fun {j _ _} hj => ?_⟩
    by_cases hij : lease.pool = j
    · subst hij
      obtain ⟨rfl, rfl⟩ := Prod.mk.inj (Option.some_inj.mp (hplan.symm.trans hj))
      exact ⟨untouched, haccount.release haccount.pool hshape⟩
    · obtain ⟨untouched', haccount'⟩ := h.account hj
      exact ⟨untouched', haccount'.of_pool_ne (t := .ended lease) hij
        (List.count_cons_of_ne hij).symm (Array.getElem?_setIfInBounds_ne hij) rfl⟩
  · rw [Ledger.giveBack_of_shape_ne haccount.pool hshape]
    refine ⟨h.size, hknown, fun {j _ _} hj => ?_⟩
    by_cases hij : lease.pool = j
    · subst hij
      obtain ⟨rfl, rfl⟩ := Prod.mk.inj (Option.some_inj.mp (hplan.symm.trans hj))
      exact ⟨untouched, haccount.lose hshape⟩
    · obtain ⟨untouched', haccount'⟩ := h.account hj
      exact ⟨untouched', haccount'.of_pool_ne (t := .ended lease) hij
        (List.count_cons_of_ne hij).symm rfl (List.count_cons_of_ne hij)⟩

end Accounts

end GridInversion
