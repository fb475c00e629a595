import Curia.Proofs.Router.Traffic
import Curia.Proofs.Time.Order

/-!
The order in which petitions are served. Whatever is asked of a router, and however the clock is
moved in between, each queue stays in the order of priority, time and sequence. So a search by
halving finds the place of a new entry, and who takes out the first entry again and again is given
all of them in that order.
-/

namespace Curia

/-! ### The order of entries -/

theorem Priority.eq_of_rank_eq {a b : Priority} (h : a.rank = b.rank) : a = b := by
  cases a <;> cases b <;> first | rfl | cases h

namespace Pending

instance : Std.TransCmp Pending.compare :=
  haveI : Std.TransCmp fun a b : Pending => Ord.compare b.priority.rank a.priority.rank :=
    @Std.TransCmp.opposite _ (compareOn fun e : Pending => e.priority.rank) inferInstance
  inferInstanceAs (Std.TransCmp (compareLex
    (fun a b : Pending => Ord.compare b.priority.rank a.priority.rank)
    (compareLex (compareOn Pending.enqueuedAt) (compareOn Pending.sequence))))

/-- An entry is served before another: its priority is higher, or else it came earlier, or at the
same time but had a smaller number. -/
def Before (a b : Pending) : Prop :=
  b.priority.rank < a.priority.rank ∨ a.priority = b.priority ∧
    (a.enqueuedAt < b.enqueuedAt ∨ a.enqueuedAt = b.enqueuedAt ∧ a.sequence < b.sequence)

theorem compare_eq_lt_iff {a b : Pending} : a.compare b = .lt ↔ a.Before b := by
  have hpriority : b.priority.rank = a.priority.rank ↔ a.priority = b.priority :=
    ⟨fun h => Priority.eq_of_rank_eq h.symm, fun h => by rw [h]⟩
  rw [Pending.compare, Ordering.then_eq_lt, Ordering.then_eq_lt, Nat.compare_eq_lt,
    Nat.compare_eq_eq, Nat.compare_eq_lt, hpriority,
    Instant.compare_eq_eq_iff]
  rfl

theorem compare_isLE_iff {a b : Pending} : (a.compare b).isLE = true ↔ ¬b.Before a := by
  rw [← compare_eq_lt_iff, ← Std.OrientedCmp.gt_iff_lt, Ordering.isLE_iff_ne_gt]

theorem Before.trans {a b c : Pending} (hab : a.Before b) (hbc : b.Before c) : a.Before c :=
  compare_eq_lt_iff.1 (Std.TransCmp.lt_trans (compare_eq_lt_iff.2 hab) (compare_eq_lt_iff.2 hbc))

/-- Numbers that differ decide where priorities and times do not. -/
theorem before_of_not_before {a b : Pending} (h : ¬b.Before a) (hne : a.sequence ≠ b.sequence) :
    a.Before b := by
  rw [← compare_isLE_iff, Ordering.isLE_iff_eq_lt_or_eq_eq] at h
  rcases h with h | h
  · exact compare_eq_lt_iff.1 h
  · obtain ⟨-, hrest⟩ := Ordering.then_eq_eq.1 h
    obtain ⟨-, hsequence⟩ := Ordering.then_eq_eq.1 hrest
    exact absurd (Nat.compare_eq_eq.1 hsequence) hne

end Pending

/-! ### The place of an entry -/

/-- A search by halving for the first number from `lo` to `hi` that does not pass. -/
def bisect (p : Nat → Bool) (lo hi : Nat) : Nat :=
  if lo < hi then
    let middle := lo + (hi - lo) / 2
    if p middle then bisect p (middle + 1) hi else bisect p lo middle
  else lo
termination_by hi - lo

/-- If no number passes after one that does not, the search finds the end of those that do. -/
theorem lt_bisect_iff {p : Nat → Bool} (hp : ∀ i j, i ≤ j → p j = true → p i = true) {lo hi : Nat}
    (hlo : ∀ i < lo, p i = true) (hhi : ∀ i, hi ≤ i → p i = false) (i : Nat) :
    i < bisect p lo hi ↔ p i = true := by
  fun_induction bisect p lo hi with
  | case1 lo hi hlt middle hmiddle ih =>
      exact ih (fun i hi => hp i middle (by omega) hmiddle) hhi
  | case2 lo hi hlt middle hmiddle ih =>
      refine ih hlo fun i hi => ?_
      rw [← Bool.not_eq_true]
      exact fun h => hmiddle (hp middle i hi h)
  | case3 lo hi hge =>
      refine ⟨hlo i, fun h => ?_⟩
      by_contra hle
      rw [hhi i (by omega)] at h
      cases h

namespace Queue

/-- Where a search by halving puts an entry. -/
def place (q : Queue) (e : Pending) : Nat :=
  bisect (fun i => q[i]?.any fun x => (x.compare e).isLE) 0 q.length

variable {q : Queue}

theorem lt_place_iff (hq : q.Pairwise Pending.Before) (e : Pending) (i : Nat) :
    i < q.place e ↔ ∃ x, q[i]? = some x ∧ ¬e.Before x := by
  have hany (i : Nat) : (q[i]?.any fun x => (x.compare e).isLE) = true ↔
      ∃ x, q[i]? = some x ∧ ¬e.Before x := by
    simp [Option.any_eq_true, Pending.compare_isLE_iff]
  rw [place, lt_bisect_iff, hany]
  · intro i j hij hj
    obtain ⟨y, hy, hle⟩ := (hany j).1 hj
    refine (hany i).2 ?_
    rcases Nat.eq_or_lt_of_le hij with rfl | hlt
    · exact ⟨y, hy, hle⟩
    · obtain ⟨hj, rfl⟩ := List.getElem?_eq_some_iff.1 hy
      have hbefore : q[i].Before q[j] := List.pairwise_iff_getElem.1 hq i j (by omega) hj hlt
      exact ⟨q[i], List.getElem?_eq_getElem _, fun h => hle (h.trans hbefore)⟩
  · simp
  · intro i hi
    simp [List.getElem?_eq_none hi]

theorem pairwise_take_drop (hq : q.Pairwise Pending.Before) (n : Nat) :
    (q.take n).Pairwise Pending.Before ∧ (q.drop n).Pairwise Pending.Before ∧
      ∀ x ∈ q.take n, ∀ y ∈ q.drop n, x.Before y := by
  rw [← List.pairwise_append, List.take_append_drop]
  exact hq

theorem not_before_of_mem_take (hq : q.Pairwise Pending.Before) {e x : Pending}
    (hx : x ∈ q.take (q.place e)) : ¬e.Before x := by
  obtain ⟨i, hi, rfl⟩ := List.mem_take_iff_getElem.1 hx
  obtain ⟨y, hy, hle⟩ := (lt_place_iff hq e i).1 (by omega)
  rw [List.getElem?_eq_getElem (by omega)] at hy
  exact Option.some.inj hy ▸ hle

theorem before_of_mem_drop (hq : q.Pairwise Pending.Before) {e x : Pending}
    (hx : x ∈ q.drop (q.place e)) : e.Before x := by
  obtain ⟨i, hi, rfl⟩ := List.mem_drop_iff_getElem.1 hx
  by_contra hle
  have hlt := (lt_place_iff hq e (q.place e + i)).2 ⟨_, List.getElem?_eq_getElem _, hle⟩
  omega

/-- In a queue that is in order, an entry gets to the place that the search has found. -/
theorem push_eq (hq : q.Pairwise Pending.Before) (e : Pending) :
    q.push e = q.take (q.place e) ++ e :: q.drop (q.place e) := by
  have hbefore : ∀ x ∈ q.take (q.place e), (x.compare e).isLE = true := fun x hx =>
    Pending.compare_isLE_iff.2 (not_before_of_mem_take hq hx)
  have hbehind : ∀ x ∈ q.drop (q.place e), ¬(x.compare e).isLE = true := fun x hx hle =>
    Pending.compare_isLE_iff.1 hle (before_of_mem_drop hq hx)
  rw [push]
  conv_lhs => rw [← List.take_append_drop (q.place e) q]
  rw [List.takeWhile_append_of_pos hbefore, List.dropWhile_append_of_pos hbefore]
  cases hdrop : q.drop (q.place e) with
  | nil => simp
  | cons y rest =>
      have hy : ¬(y.compare e).isLE = true := hbehind y (by simp [hdrop])
      simp [hy]

theorem pairwise_push (hq : q.Pairwise Pending.Before) {e : Pending}
    (he : ∀ x ∈ q, x.sequence ≠ e.sequence) : (q.push e).Pairwise Pending.Before := by
  obtain ⟨hbefore, hbehind, hacross⟩ := pairwise_take_drop hq (q.place e)
  rw [push_eq hq]
  refine List.pairwise_append.2 ⟨hbefore, ?_, ?_⟩
  · exact List.pairwise_cons.2 ⟨fun x hx => before_of_mem_drop hq hx, hbehind⟩
  · intro x hx y hy
    have hxe : x.Before e :=
      Pending.before_of_not_before (not_before_of_mem_take hq hx) (he x (List.mem_of_mem_take hx))
    rcases List.mem_cons.1 hy with rfl | hy
    · exact hxe
    · exact hacross x hx y hy

end Queue

@[simp] theorem Queues.set_set (qs : Queues) (p : Pipeline) (q q' : Queue) :
    (qs.set p q).set p q' = qs.set p q' := by
  cases p <;> rfl

namespace Router

/-! ### Queues in order -/

/-- In every queue each entry is served before those behind it. -/
def InOrder (r : Router) : Prop := ∀ p, (r.queues.get p).Pairwise Pending.Before

theorem Tidy.sequence_lt_of_mem {r : Router} {taken : PetitionId → Pipeline → Prop}
    (hr : r.Tidy taken) {p : Pipeline} {e : Pending} (he : e ∈ r.queues.get p) :
    e.sequence < r.sequence := by
  obtain ⟨s, d, hd, rfl, -⟩ := (hr.mem_iff.1 he).1
  exact hr.sequence_lt hd

namespace InOrder

variable {r : Router}

theorem new (table : RoutingTable) : (Router.new table).InOrder := by
  intro p
  rw [Router.new, Queues.get_empty]
  exact .nil

theorem commit (h : r.InOrder) {d : Disposition}
    (hd : ∀ p, ∀ e ∈ r.queues.get p, e.sequence ≠ d.pending.sequence) : (r.commit d).InOrder := by
  intro p
  show ((r.queues.push d.pending).get p).Pairwise Pending.Before
  rw [Queues.push, Queues.get_set]
  split
  · exact Queue.pairwise_push (h _) (hd _)
  · exact h p

theorem emit (h : r.InOrder) {taken : PetitionId → Pipeline → Prop} (hr : r.Tidy taken)
    (s : Session) (c : Consensus) (p : Petition) (now : Instant)
    (completionId routingId : EventId) :
    (r.emit s c p now completionId routingId).2.InOrder := by
  cases hs : r.emitted.get? s.id with
  | some d =>
      rw [emit_of_emitted hs]
      exact h
  | none =>
      obtain ⟨e, hemit⟩ | ⟨d, hissues, hemit⟩ := emit_of_none hs c p now completionId routingId
      · rw [hemit]
        exact h
      · rw [hemit]
        -- whatever the clock shows, the number of the new entry is the greatest
        refine h.commit fun p e he => ?_
        rw [hissues.sequence]
        exact Nat.ne_of_lt (hr.sequence_lt_of_mem he)

theorem acknowledge (h : r.InOrder) (petition : PetitionId) (p : Pipeline) :
    (r.acknowledge petition p).2.InOrder := by
  intro p'
  show ((r.queues.set p ((r.queues.get p).remove petition)).get p').Pairwise Pending.Before
  rw [Queues.get_set]
  split
  · exact (h p).sublist List.eraseP_sublist
  · exact h p'

end InOrder

theorem inOrder_run (table : RoutingTable) (requests : List Request) :
    ((new table).run requests).InOrder := by
  induction requests using List.reverseRecOn with
  | nil => exact .new table
  | append_singleton requests request ih =>
      rw [run_concat]
      cases request with
      | emit s c p now completionId routingId =>
          exact ih.emit (tidy_run table requests) s c p now completionId routingId
      | precheck s c p => exact ih
      | acknowledge petition p => exact ih.acknowledge petition p

/-! ### Serving -/

/-- Who asks for the first entry of a pipeline and acknowledges it, until there is none, is given
the entries and leaves the router so. -/
inductive Drains (p : Pipeline) : Router → List Pending → Router → Prop
  | done {r : Router} (h : r.pending p 1 = []) : Drains p r [] r
  | serve {r r' r'' : Router} {e : Pending} {es : List Pending} (h : r.pending p 1 = [e])
      (hserve : r.acknowledge e.petition p = (true, r')) (hrest : Drains p r' es r'') :
      Drains p r (e :: es) r''

/-- Acknowledging the first entry takes it out and nothing else. -/
theorem acknowledge_head {r : Router} {p : Pipeline} {e : Pending} {es : List Pending}
    (h : r.queues.get p = e :: es) :
    r.acknowledge e.petition p = (true, { r with queues := r.queues.set p es }) := by
  have hholds : (r.queues.get p).holds e.petition = true := Queue.holds_iff.2 ⟨e, by simp [h], rfl⟩
  have hremove : (r.queues.get p).remove e.petition = es := by
    rw [h, Queue.remove]
    exact List.eraseP_cons_of_pos (by simp)
  rw [acknowledge, hholds, hremove]

theorem cleared_of_empty {r : Router} {p : Pipeline} (h : r.queues.get p = []) :
    { r with queues := r.queues.set p [] } = r := by
  rw [← h, Queues.set_get_self]

/-- Nothing else can be served than the queue as it stands. -/
theorem drains_iff {r r' : Router} {p : Pipeline} {es : List Pending} :
    Drains p r es r' ↔
      es = r.queues.get p ∧ r' = { r with queues := r.queues.set p [] } := by
  constructor
  · intro h
    induction h with
    | @done r h =>
        have hnil : r.queues.get p = [] := by simpa [pending] using h
        exact ⟨hnil.symm, (cleared_of_empty hnil).symm⟩
    | @serve r r' r'' e es h hserve hrest ih =>
        obtain ⟨rest, hqueue⟩ : ∃ rest, r.queues.get p = e :: rest := by
          rw [pending] at h
          cases hqueue : r.queues.get p with
          | nil => simp [hqueue] at h
          | cons x rest =>
              rw [hqueue] at h
              exact ⟨rest, by rw [(List.cons.inj h).1]⟩
        rw [acknowledge_head hqueue] at hserve
        obtain rfl := congrArg Prod.snd hserve
        obtain ⟨rfl, rfl⟩ := ih
        simp [hqueue]
  · rintro ⟨rfl, rfl⟩
    generalize hqueue : r.queues.get p = q
    induction q generalizing r with
    | nil =>
        rw [cleared_of_empty hqueue]
        exact .done (by simp [pending, hqueue])
    | cons e es ih =>
        have hserve := acknowledge_head hqueue
        have hrest := ih (r := { r with queues := r.queues.set p es }) (by simp)
        rw [Queues.set_set] at hrest
        exact .serve (by simp [pending, hqueue]) hserve hrest

/-- After any run each queue is in the order of priority, time and number. The first entries of a
queue are served before the others, a search by halving finds the place of a new one, and who takes
out the first entry until there is none is given each entry once and in this order. -/
theorem serves_in_order (table : RoutingTable) (requests : List Request) (p : Pipeline) :
    let r := (new table).run requests
    let q := r.queues.get p
    q.Pairwise Pending.Before ∧ q.Nodup ∧
      (∀ n, r.pending p n = q.take n ∧ ∀ e ∈ r.pending p n, ∀ x ∈ q.drop n, e.Before x) ∧
      r.pendingCount p = q.length ∧
      (∀ e, q.push e = q.take (q.place e) ++ e :: q.drop (q.place e)) ∧
      ∀ es r', Drains p r es r' ↔
        es = q ∧ r' = { r with queues := r.queues.set p [] } := by
  intro r q
  have hq : q.Pairwise Pending.Before := inOrder_run table requests p
  exact ⟨hq, (tidy_run table requests).nodup p,
    fun n => ⟨rfl, (Queue.pairwise_take_drop hq n).2.2⟩, rfl, Queue.push_eq hq,
    fun es r' => drains_iff⟩

/-- All three archons of a session are for a referral. -/
def referring (session : Nat) : Consensus where
  session := ⟨.ofNat session⟩
  petition := ⟨.ofNat session⟩
  status := .unanimous
  winner := some .refer
  distribution := .ofList [(.refer, 3)]
  majority := .ofList [⟨"a"⟩, ⟨"b"⟩, ⟨"c"⟩]
  dissenter := none
  resolvedAt := .epoch
  flawless := rfl

/-- A petition is routed by their votes. -/
def asking (n : Nat) (priority : Priority) (now : Instant) : Request :=
  .emit (.sample n n .refer .refer .refer) (referring n) { Petition.sample n with priority } now
    ⟨.ofNat n⟩ ⟨.ofNat n⟩

/-- The clock is turned back after the first petition, and the third is critical. The second and the
fourth come at the same time. -/
theorem serves_in_order_turned_back :
    let early : Instant := ⟨50, 0, by decide⟩
    let late : Instant := ⟨100, 0, by decide⟩
    let r := (new .standard).run
      [asking 1 .normal late, asking 2 .normal early, asking 3 .critical late,
        asking 4 .normal early]
    (r.pending .referral 4).map Pending.petition = [3, 2, 4, 1].map (⟨.ofNat ·⟩) ∧
      ∃ r', Drains .referral r (r.pending .referral 4) r' ∧ r'.queues = .empty := by
  intro early late r
  have hqueues : r.queues.set .referral [] = .empty := by decide +kernel
  have hall : r.pending .referral 4 = r.queues.get .referral := by decide +kernel
  obtain ⟨-, -, -, -, -, hdrains⟩ := serves_in_order .standard
    [asking 1 .normal late, asking 2 .normal early, asking 3 .critical late,
      asking 4 .normal early] .referral
  exact ⟨by decide +kernel, _, (hdrains _ _).2 ⟨hall, rfl⟩, hqueues⟩

end Router

end Curia
