import Mathlib.Data.List.Induction
import Mathlib.Data.List.Nodup
import Curia.Proofs.Router.Emission

/-!
A router over many requests. Each disposition that is kept has its petition reserved and its entry
in the queue of its pipeline, until the pipeline takes it out; nothing else is reserved or waits,
and nothing waits twice.
-/

namespace Curia

/-! ### Queues -/

namespace Queue

theorem push_perm (q : Queue) (e : Pending) : (q.push e).Perm (e :: q) := by
  have h : q.takeWhile (fun x => (x.compare e).isLE) ++ q.dropWhile (fun x => (x.compare e).isLE) =
      q := List.takeWhile_append_dropWhile
  rw [push]
  exact List.perm_middle.trans (by rw [h])

theorem mem_push {q : Queue} {e x : Pending} : x ∈ q.push e ↔ x = e ∨ x ∈ q := by
  rw [(q.push_perm e).mem_iff, List.mem_cons]

theorem nodup_push {q : Queue} {e : Pending} (hq : q.Nodup) (he : e ∉ q) : (q.push e).Nodup := by
  rw [(q.push_perm e).nodup_iff, List.nodup_cons]
  exact ⟨he, hq⟩

theorem holds_iff {q : Queue} {p : PetitionId} : q.holds p = true ↔ ∃ e ∈ q, e.petition = p := by
  simp [holds]

end Queue

namespace Queues

@[simp] theorem get_empty (p : Pipeline) : empty.get p = [] := by cases p <;> rfl

@[simp] theorem set_get_self (qs : Queues) (p : Pipeline) : qs.set p (qs.get p) = qs := by
  cases p <;> rfl

theorem get_set (qs : Queues) (p p' : Pipeline) (q : Queue) :
    (qs.set p q).get p' = if p = p' then q else qs.get p' := by
  split
  · next h => rw [← h, get_set_self]
  · next h => exact qs.get_set_of_ne q h

theorem mem_get_push {qs : Queues} {e x : Pending} {p : Pipeline} :
    x ∈ (qs.push e).get p ↔ (x = e ∧ e.pipeline = p) ∨ x ∈ qs.get p := by
  rw [push, get_set]
  split
  · next h =>
    rw [Queue.mem_push, h]
    simp
  · next h => simp [h]

theorem nodup_get_push {qs : Queues} {e : Pending} {p : Pipeline} (hqs : (qs.get p).Nodup)
    (he : e ∉ qs.get p) : ((qs.push e).get p).Nodup := by
  rw [push, get_set]
  split
  · next h =>
    rw [h]
    exact Queue.nodup_push hqs he
  · exact hqs

end Queues

/-- All reports of a disposition, and its entry, are about the petition. -/
def Disposition.Routes (d : Disposition) (petition : PetitionId) : Prop :=
  d.completion.petition = petition ∧ d.routing.petition = petition ∧ d.pending.petition = petition

namespace Router

/-! ### Requests -/

/-- What may be asked of a router. -/
inductive Request where
  | emit (s : Session) (c : Consensus) (p : Petition) (now : Instant)
      (completionId routingId : EventId)
  | precheck (s : Session) (c : Consensus) (p : Petition)
  | acknowledge (petition : PetitionId) (p : Pipeline)

def step (r : Router) : Request → Router
  | .emit s c p now completionId routingId => (r.emit s c p now completionId routingId).2
  | .precheck .. => r
  | .acknowledge petition p => (r.acknowledge petition p).2

def run (r : Router) (requests : List Request) : Router := requests.foldl step r

theorem run_concat (r : Router) (requests : List Request) (request : Request) :
    r.run (requests ++ [request]) = (r.run requests).step request :=
  List.foldl_append

/-- One of the requests is such, at the time when it is made. -/
def Once (r : Router) (requests : List Request) (P : Router → Request → Prop) : Prop :=
  ∃ before request after, requests = before ++ request :: after ∧ P (r.run before) request

/-- One of the requests took the petition out of the queue. -/
def Taken (r : Router) (requests : List Request) (petition : PetitionId) (p : Pipeline) : Prop :=
  r.Once requests fun r request =>
    request = .acknowledge petition p ∧ (r.acknowledge petition p).1 = true

/-- One of the requests was answered with the disposition of the session. -/
def Answered (r : Router) (requests : List Request) (id : SessionId) (d : Disposition) : Prop :=
  r.Once requests fun r request => ∃ s c p now completionId routingId,
    request = .emit s c p now completionId routingId ∧ s.id = id ∧
      (r.emit s c p now completionId routingId).1 = .ok d

section

variable {r : Router} {P : Router → Request → Prop}

theorem not_once_nil : ¬r.Once [] P := by
  rintro ⟨before, request, after, h, -⟩
  simp at h

theorem once_concat {requests : List Request} {request : Request} :
    r.Once (requests ++ [request]) P ↔ r.Once requests P ∨ P (r.run requests) request := by
  constructor
  · rintro ⟨before, found, after, h, hfound⟩
    -- the request in question is the last one or an earlier one
    rcases List.eq_nil_or_concat after with rfl | ⟨after, last, rfl⟩
    · obtain ⟨rfl, hlast⟩ := List.append_inj' h rfl
      exact .inr (List.singleton_inj.1 hlast ▸ hfound)
    · rw [List.concat_eq_append, ← List.cons_append, ← List.append_assoc] at h
      exact .inl ⟨before, found, after, (List.append_inj' h rfl).1, hfound⟩
  · rintro (⟨before, found, after, rfl, hfound⟩ | hlast)
    · exact ⟨before, found, after ++ [request], by simp, hfound⟩
    · exact ⟨requests, request, [], rfl, hlast⟩

end

theorem taken_concat {r : Router} {requests : List Request} {request : Request}
    {petition : PetitionId} {p : Pipeline} :
    r.Taken (requests ++ [request]) petition p ↔ r.Taken requests petition p ∨
      (request = .acknowledge petition p ∧
        ((r.run requests).acknowledge petition p).1 = true) :=
  once_concat

/-! ### Keeping -/

/-- What is kept is just what some emission was answered with. -/
theorem get?_emitted_run (table : RoutingTable) (requests : List Request) (id : SessionId)
    (d : Disposition) : ((new table).run requests).emitted.get? id = some d ↔
      (new table).Answered requests id d := by
  induction requests using List.reverseRecOn with
  | nil =>
      refine iff_of_false (fun h => ?_) not_once_nil
      cases h
  | append_singleton requests request ih =>
      rw [run_concat, Answered, once_concat, ← Answered, ← ih]
      cases request with
      | emit s c p now completionId routingId =>
          show (((new table).run requests).emit s c p now completionId routingId).2.emitted.get? id =
            some d ↔ _
          rw [get?_emitted_emit]
          refine or_congr_right ⟨fun h => ⟨s, c, p, now, completionId, routingId, rfl, h⟩, ?_⟩
          rintro ⟨_, _, _, _, _, _, ⟨⟩, h⟩
          exact h
      | precheck s c p => simp [step]
      | acknowledge petition p => simp [step, acknowledge]

/-! ### Taking out -/

/-- A petition that does not wait is not taken out, and nothing happens; else its first entry is
taken out. -/
theorem acknowledge_cases (r : Router) (petition : PetitionId) (p : Pipeline) :
    (∀ e ∈ r.queues.get p, e.petition ≠ petition) ∧ r.acknowledge petition p = (false, r) ∨
      ∃ before e after, r.queues.get p = before ++ e :: after ∧ e.petition = petition ∧
        r.acknowledge petition p =
          (true, { r with queues := r.queues.set p (before ++ after) }) := by
  by_cases h : ∃ e ∈ r.queues.get p, e.petition = petition
  · have hholds : (r.queues.get p).holds petition = true := Queue.holds_iff.2 h
    obtain ⟨x, hx, hpetition⟩ := h
    obtain ⟨e, before, after, -, he, hqueue, hremove⟩ :=
      List.exists_of_eraseP (p := fun e => e.petition = petition) hx (by simpa using hpetition)
    refine .inr ⟨before, e, after, hqueue, by simpa using he, ?_⟩
    rw [acknowledge, hholds, Queue.remove, hremove]
  · have hne : ∀ e ∈ r.queues.get p, e.petition ≠ petition := fun e he hp => h ⟨e, he, hp⟩
    have hholds : (r.queues.get p).holds petition = false := by
      rw [← Bool.not_eq_true, Queue.holds_iff]
      exact h
    have hremove : (r.queues.get p).remove petition = r.queues.get p :=
      List.eraseP_of_forall_not fun e he => by simpa using hne e he
    refine .inl ⟨hne, ?_⟩
    rw [acknowledge, hholds, hremove, Queues.set_get_self]

/-! ### What is kept, reserved and waiting -/

/-- The entry of a disposition that is kept, in the pipeline of that disposition. -/
def Kept (r : Router) (p : Pipeline) (e : Pending) : Prop :=
  ∃ s d, r.emitted.get? s = some d ∧ d.pending = e ∧ d.pipeline = p

/-- Sequence numbers tell dispositions apart, and what waits is what is kept and has not been
taken out. -/
structure Tidy (r : Router) (taken : PetitionId → Pipeline → Prop) : Prop where
  sound : r.Sound
  sequence_lt : ∀ {s d}, r.emitted.get? s = some d → d.pending.sequence < r.sequence
  sequence_inj : ∀ {s t d e}, r.emitted.get? s = some d → r.emitted.get? t = some e →
    d.pending.sequence = e.pending.sequence → s = t
  nodup : ∀ p, (r.queues.get p).Nodup
  mem_iff : ∀ {p e}, e ∈ r.queues.get p ↔ r.Kept p e ∧ ¬taken e.petition p
  reserved_of_taken : ∀ {petition p}, taken petition p → ∃ s, r.reserved.get? petition = some s

namespace Sound

variable {r : Router} {e e' : Pending} {p p' : Pipeline}

theorem kept_of_petition (hr : r.Sound) (he : r.Kept p e) (he' : r.Kept p' e')
    (h : e.petition = e'.petition) : e = e' ∧ p = p' := by
  obtain ⟨s, d, hd, rfl, rfl⟩ := he
  obtain ⟨s', d', hd', rfl, rfl⟩ := he'
  rw [(hr.coherent hd).pending_petition, (hr.coherent hd').pending_petition] at h
  have hreserved := hr.reserved_iff.2 ⟨d, hd, h⟩
  rw [hr.reserved_iff.2 ⟨d', hd', rfl⟩] at hreserved
  obtain rfl := Option.some.inj hreserved
  rw [hd] at hd'
  cases hd'
  exact ⟨rfl, rfl⟩

theorem kept_of_session (hr : r.Sound) (he : r.Kept p e) (he' : r.Kept p' e')
    (h : e.session = e'.session) : e = e' := by
  obtain ⟨s, d, hd, rfl, rfl⟩ := he
  obtain ⟨s', d', hd', rfl, rfl⟩ := he'
  rw [(hr.coherent hd).pending_session, (hr.coherent hd').pending_session, hr.session hd,
    hr.session hd'] at h
  subst h
  rw [hd] at hd'
  cases hd'
  rfl

end Sound

theorem Issues.sequence {r : Router} {s : Session} {c : Consensus} {p : Petition} {now : Instant}
    {completionId routingId : EventId} {d : Disposition}
    (h : r.Issues s c p now completionId routingId d) : d.pending.sequence = r.sequence := by
  rw [h.eq_dispositionOf]
  rfl

namespace Tidy

variable {r : Router} {taken : PetitionId → Pipeline → Prop}

theorem new (table : RoutingTable) : (Router.new table).Tidy fun _ _ => False := by
  constructor
  case sound => exact .new table
  case nodup => intro p; simp [Router.new]
  case mem_iff =>
    intro p e
    have hqueue : (Router.new table).queues.get p = [] := Queues.get_empty p
    have hkept : ¬(Router.new table).Kept p e := by
      rintro ⟨s, d, hd, -⟩
      cases hd
    simp [hqueue, hkept]
  all_goals simp [Router.new]

theorem congr (hr : r.Tidy taken) {taken' : PetitionId → Pipeline → Prop}
    (h : ∀ petition p, taken' petition p ↔ taken petition p) : r.Tidy taken' := by
  have heq : taken' = taken := funext fun petition => funext fun p => propext (h petition p)
  rw [heq]
  exact hr

/-- A disposition is kept whose session and petition are new. -/
theorem commit (hr : r.Tidy taken) {d : Disposition} (hd : d.Coherent r.table)
    (hnone : r.emitted.get? d.completion.session = none)
    (hfree : r.reserved.get? d.completion.petition = none)
    (hsequence : d.pending.sequence = r.sequence) : (r.commit d).Tidy taken := by
  have hemitted (s : SessionId) : (r.commit d).emitted.get? s =
      if d.completion.session = s then some d else r.emitted.get? s := by
    rw [get?_emitted_commit, hd.pending_session]
  have hkept (p : Pipeline) (e : Pending) :
      (r.commit d).Kept p e ↔ (e = d.pending ∧ d.pipeline = p) ∨ r.Kept p e := by
    constructor
    · rintro ⟨s, d', hd', rfl, rfl⟩
      rw [hemitted] at hd'
      split at hd'
      · cases hd'
        exact .inl ⟨rfl, rfl⟩
      · exact .inr ⟨s, d', hd', rfl, rfl⟩
    · rintro (⟨rfl, rfl⟩ | ⟨s, d', hd', rfl, rfl⟩)
      · exact ⟨_, d, by rw [hemitted, if_pos rfl], rfl, rfl⟩
      · have hne : d.completion.session ≠ s := by
          rintro rfl
          rw [hnone] at hd'
          cases hd'
        exact ⟨s, d', by rw [hemitted, if_neg hne, hd'], rfl, rfl⟩
  have hfresh (p : Pipeline) : d.pending ∉ r.queues.get p := by
    intro hmem
    obtain ⟨⟨s, d', hd', hpending, -⟩, -⟩ := hr.mem_iff.1 hmem
    have hlt := hr.sequence_lt hd'
    rw [hpending, hsequence] at hlt
    omega
  have huntaken (p : Pipeline) : ¬taken d.pending.petition p := by
    intro h
    obtain ⟨s, hs⟩ := hr.reserved_of_taken h
    rw [hd.pending_petition, hfree] at hs
    cases hs
  constructor
  case sound => exact hr.sound.commit hd hnone hfree
  case sequence_lt =>
    intro s d' hd'
    show d'.pending.sequence < r.sequence + 1
    rw [hemitted] at hd'
    split at hd'
    · cases hd'
      omega
    · have := hr.sequence_lt hd'
      omega
  case sequence_inj =>
    intro s t d₁ d₂ h₁ h₂ h
    rw [hemitted] at h₁ h₂
    split at h₁ <;> split at h₂
    · next hs ht => exact hs.symm.trans ht
    · cases h₁
      have := hr.sequence_lt h₂
      omega
    · cases h₂
      have := hr.sequence_lt h₁
      omega
    · exact hr.sequence_inj h₁ h₂ h
  case nodup => exact fun p => Queues.nodup_get_push (hr.nodup p) (hfresh p)
  case mem_iff =>
    intro p e
    rw [hkept]
    show e ∈ (r.queues.push d.pending).get p ↔ _
    rw [Queues.mem_get_push, hr.mem_iff, hd.pending_pipeline]
    constructor
    · rintro (⟨rfl, hp⟩ | ⟨he, htaken⟩)
      · exact ⟨.inl ⟨rfl, hp⟩, huntaken p⟩
      · exact ⟨.inr he, htaken⟩
    · rintro ⟨⟨rfl, hp⟩ | he, htaken⟩
      · exact .inl ⟨rfl, hp⟩
      · exact .inr ⟨he, htaken⟩
  case reserved_of_taken =>
    intro petition p h
    rw [get?_reserved_commit]
    split
    · exact ⟨_, rfl⟩
    · exact hr.reserved_of_taken h

theorem emit (hr : r.Tidy taken) (s : Session) (c : Consensus) (p : Petition) (now : Instant)
    (completionId routingId : EventId) :
    (r.emit s c p now completionId routingId).2.Tidy taken := by
  cases hs : r.emitted.get? s.id with
  | some d =>
      rw [Router.emit, hs]
      exact hr
  | none =>
      obtain ⟨e, h⟩ | ⟨d, hissues, h⟩ := emit_of_none hs c p now completionId routingId
      · rw [h]
        exact hr
      · rw [h]
        have hfree : r.reserved.get? d.completion.petition = none := by
          rw [hissues.follows.petition, ← hissues.admits.petition]
          exact hissues.free
        exact hr.commit hissues.coherent (hissues.follows.session ▸ hs) hfree hissues.sequence

/-- A petition is taken out of a queue, where it waits. -/
theorem acknowledge (hr : r.Tidy taken) (petition : PetitionId) (p : Pipeline) :
    (r.acknowledge petition p).2.Tidy fun petition' p' => taken petition' p' ∨
      (petition' = petition ∧ p' = p ∧ (r.acknowledge petition p).1 = true) := by
  obtain ⟨-, h⟩ | ⟨before, e, after, hqueue, he, h⟩ := r.acknowledge_cases petition p
  · rw [h]
    exact hr.congr (by simp)
  · rw [h]
    have hmem : e ∈ r.queues.get p := by simp [hqueue]
    have hkept := (hr.mem_iff.1 hmem).1
    have hnodup : (before ++ e :: after).Nodup := hqueue ▸ hr.nodup p
    have hrest : (e :: (before ++ after)).Nodup := List.nodup_middle.1 hnodup
    constructor
    case sound => exact ⟨hr.sound.coherent, hr.sound.session, hr.sound.reserved_iff⟩
    case sequence_lt => exact hr.sequence_lt
    case sequence_inj => exact hr.sequence_inj
    case nodup =>
      intro p'
      simp only [Queues.get_set]
      split
      · exact (List.nodup_cons.1 hrest).2
      · exact hr.nodup p'
    case mem_iff =>
      intro p' x
      have hx : r.Kept p' x ∧ ¬taken x.petition p' ↔ x ∈ r.queues.get p' := hr.mem_iff.symm
      show x ∈ (r.queues.set p (before ++ after)).get p' ↔ r.Kept p' x ∧ _
      rw [Queues.get_set, not_or, ← and_assoc, hx]
      split
      · next hp =>
        subst hp
        rw [hqueue]
        have hmiddle : x ∈ before ++ e :: after ↔ x = e ∨ x ∈ before ++ after := by simp; tauto
        rw [hmiddle]
        constructor
        · intro hmem'
          refine ⟨.inr hmem', fun h => ?_⟩
          -- another entry of the petition would be the one that is taken out
          have hxmem : x ∈ r.queues.get p := by
            rw [hqueue, hmiddle]
            exact .inr hmem'
          obtain ⟨rfl, -⟩ := hr.sound.kept_of_petition (hr.mem_iff.1 hxmem).1 hkept
            (h.1.trans he.symm)
          exact (List.nodup_cons.1 hrest).1 hmem'
        · rintro ⟨rfl | hmem', hne⟩
          · exact absurd ⟨he, rfl, rfl⟩ hne
          · exact hmem'
      · next hp => simp [Ne.symm hp]
    case reserved_of_taken =>
      rintro petition' p' (htaken | ⟨rfl, rfl, -⟩)
      · exact hr.reserved_of_taken htaken
      · obtain ⟨s, d, hd, rfl, -⟩ := hkept
        rw [← he, (hr.sound.coherent hd).pending_petition]
        exact ⟨s, hr.sound.reserved_iff.2 ⟨d, hd, rfl⟩⟩

end Tidy

theorem tidy_run (table : RoutingTable) (requests : List Request) :
    ((new table).run requests).Tidy ((new table).Taken requests) := by
  induction requests using List.reverseRecOn with
  | nil => exact (Tidy.new table).congr fun petition p => by simp [Taken, not_once_nil]
  | append_singleton requests request ih =>
      rw [run_concat]
      cases request with
      | emit s c p now completionId routingId =>
          exact (ih.emit s c p now completionId routingId).congr fun petition p => by
            simp [taken_concat]
      | precheck s c p => exact ih.congr fun petition p => by simp [taken_concat]
      | acknowledge petition p =>
          refine (ih.acknowledge petition p).congr fun petition' p' => ?_
          rw [taken_concat, Request.acknowledge.injEq]
          constructor
          · rintro (h | ⟨⟨rfl, rfl⟩, h⟩)
            · exact .inl h
            · exact .inr ⟨rfl, rfl, h⟩
          · rintro (h | ⟨rfl, rfl, h⟩)
            · exact .inl h
            · exact .inr ⟨⟨rfl, rfl⟩, h⟩

/-! ### Balance -/

/-- All entries that wait. -/
def waiting (r : Router) : List Pending := Pipeline.all.flatMap r.queues.get

/-- Nothing is lost and nothing doubled: what emissions were answered with is kept, sessions with a
disposition and reserved petitions belong together one by one, and what waits in a queue is what is
kept for its pipeline and has not been taken out. Taking out removes one entry, or does nothing if
there is none. -/
structure Balanced (r : Router) (answered : SessionId → Disposition → Prop)
    (taken : PetitionId → Pipeline → Prop) : Prop where
  answered_iff : ∀ s d, answered s d ↔ r.emitted.get? s = some d
  reserved_iff : ∀ petition s, r.reserved.get? petition = some s ↔
    ∃ d, r.emitted.get? s = some d ∧ d.Routes petition
  emitted_iff : ∀ s, (∃ d, r.emitted.get? s = some d) ↔
    ∃ petition, r.reserved.get? petition = some s
  reserved_injective : ∀ petition petition' s, r.reserved.get? petition = some s →
    r.reserved.get? petition' = some s → petition = petition'
  petitions_nodup : (r.waiting.map Pending.petition).Nodup
  sessions_nodup : (r.waiting.map Pending.session).Nodup
  mem_iff : ∀ p e, e ∈ r.queues.get p ↔
    (∃ s d, r.emitted.get? s = some d ∧ d.pending = e ∧ d.pipeline = p) ∧ ¬taken e.petition p
  acknowledge_iff : ∀ petition p, (r.acknowledge petition p).1 = true ↔
    ∃ e ∈ r.queues.get p, e.petition = petition
  acknowledge_of_mem : ∀ p, ∀ e ∈ r.queues.get p, (r.acknowledge e.petition p).2 =
    { r with queues := r.queues.set p ((r.queues.get p).erase e) }
  acknowledge_of_forall : ∀ petition p, (∀ e ∈ r.queues.get p, e.petition ≠ petition) →
    (r.acknowledge petition p).2 = r
  sequences_nodup : (r.waiting.map Pending.sequence).Nodup
  sequence_lt : ∀ e ∈ r.waiting, e.sequence < r.sequence

theorem mem_waiting {r : Router} {e : Pending} : e ∈ r.waiting ↔ ∃ p, e ∈ r.queues.get p := by
  constructor
  · intro h
    obtain ⟨p, -, he⟩ := List.mem_flatMap.1 h
    exact ⟨p, he⟩
  · rintro ⟨p, he⟩
    exact List.mem_flatMap.2 ⟨p, by cases p <;> decide, he⟩

namespace Tidy

variable {r : Router} {taken : PetitionId → Pipeline → Prop}

theorem waiting_nodup (hr : r.Tidy taken) : r.waiting.Nodup := by
  refine List.nodup_flatMap.2 ⟨fun p _ => hr.nodup p, ?_⟩
  have hpipelines : Pipeline.all.Nodup := by decide
  refine hpipelines.imp fun {p p'} hne e he he' => hne ?_
  exact (hr.sound.kept_of_petition (hr.mem_iff.1 he).1 (hr.mem_iff.1 he').1 rfl).2

theorem kept_of_mem_waiting (hr : r.Tidy taken) {e : Pending} (he : e ∈ r.waiting) :
    ∃ p, r.Kept p e := by
  obtain ⟨p, hp⟩ := mem_waiting.1 he
  exact ⟨p, (hr.mem_iff.1 hp).1⟩

/-- What tells apart the entries that are kept is different for all that wait. -/
theorem nodup_map (hr : r.Tidy taken) {α : Type} (f : Pending → α)
    (hf : ∀ {p p' e e'}, r.Kept p e → r.Kept p' e' → f e = f e' → e = e') :
    (r.waiting.map f).Nodup := by
  refine List.Nodup.map_on (fun e he e' he' h => ?_) hr.waiting_nodup
  obtain ⟨p, hp⟩ := hr.kept_of_mem_waiting he
  obtain ⟨p', hp'⟩ := hr.kept_of_mem_waiting he'
  exact hf hp hp' h

theorem balanced (hr : r.Tidy taken) {answered : SessionId → Disposition → Prop}
    (hanswered : ∀ s d, r.emitted.get? s = some d ↔ answered s d) : r.Balanced answered taken := by
  have hroutes {s : SessionId} {d : Disposition} (hd : r.emitted.get? s = some d) :
      d.Routes d.completion.petition :=
    ⟨rfl, (hr.sound.coherent hd).routing_petition, (hr.sound.coherent hd).pending_petition⟩
  constructor
  case answered_iff => exact fun s d => (hanswered s d).symm
  case reserved_iff =>
    intro petition s
    rw [hr.sound.reserved_iff]
    constructor
    · rintro ⟨d, hd, rfl⟩
      exact ⟨d, hd, hroutes hd⟩
    · rintro ⟨d, hd, hp, -⟩
      exact ⟨d, hd, hp⟩
  case emitted_iff =>
    intro s
    constructor
    · rintro ⟨d, hd⟩
      exact ⟨_, hr.sound.reserved_iff.2 ⟨d, hd, rfl⟩⟩
    · rintro ⟨petition, h⟩
      obtain ⟨d, hd, -⟩ := hr.sound.reserved_iff.1 h
      exact ⟨d, hd⟩
  case reserved_injective =>
    intro petition petition' s h h'
    obtain ⟨d, hd, rfl⟩ := hr.sound.reserved_iff.1 h
    obtain ⟨d', hd', rfl⟩ := hr.sound.reserved_iff.1 h'
    rw [hd] at hd'
    cases hd'
    rfl
  case petitions_nodup =>
    exact hr.nodup_map _ fun he he' h => (hr.sound.kept_of_petition he he' h).1
  case sessions_nodup => exact hr.nodup_map _ fun he he' h => hr.sound.kept_of_session he he' h
  case mem_iff => exact fun p e => hr.mem_iff
  case acknowledge_iff =>
    intro petition p
    rw [Router.acknowledge, Queue.holds_iff]
  case acknowledge_of_mem =>
    intro p e he
    obtain ⟨hne, -⟩ | ⟨before, x, after, hqueue, hx, h⟩ := r.acknowledge_cases e.petition p
    · exact absurd rfl (hne e he)
    · have hmem : x ∈ r.queues.get p := by simp [hqueue]
      obtain ⟨rfl, -⟩ :=
        hr.sound.kept_of_petition (hr.mem_iff.1 hmem).1 (hr.mem_iff.1 he).1 hx
      have hnodup : (before ++ x :: after).Nodup := hqueue ▸ hr.nodup p
      have hbefore : x ∉ before := fun h => by
        have := List.nodup_cons.1 (List.nodup_middle.1 hnodup)
        exact this.1 (List.mem_append_left _ h)
      rw [h, hqueue, List.erase_append_right _ hbefore, List.erase_cons_head]
  case acknowledge_of_forall =>
    intro petition p hne
    obtain ⟨-, h⟩ | ⟨before, x, after, hqueue, hx, -⟩ := r.acknowledge_cases petition p
    · rw [h]
    · exact absurd hx (hne x (by simp [hqueue]))
  case sequences_nodup =>
    refine hr.nodup_map _ fun {p p' e e'} he he' h => ?_
    obtain ⟨s, d, hd, rfl, -⟩ := he
    obtain ⟨s', d', hd', rfl, -⟩ := he'
    obtain rfl := hr.sequence_inj hd hd' h
    rw [hd] at hd'
    cases hd'
    rfl
  case sequence_lt =>
    intro e he
    obtain ⟨p, s, d, hd, rfl, -⟩ := hr.kept_of_mem_waiting he
    exact hr.sequence_lt hd

end Tidy

/-- Whatever is asked of a new router, it stays balanced. -/
theorem balanced_run (table : RoutingTable) (requests : List Request) :
    ((new table).run requests).Balanced ((new table).Answered requests)
      ((new table).Taken requests) :=
  (tidy_run table requests).balanced (get?_emitted_run table requests)

end Router

end Curia
