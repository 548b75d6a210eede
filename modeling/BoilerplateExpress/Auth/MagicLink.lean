import BoilerplateExpress.Machine
import BoilerplateExpress.OrderedMap
import BoilerplateExpress.Text

/-!
# Magic links and their queued delivery

`createMagicLinkIssuer` and `createMagicLinkStrategy` of
`auth/strategies/magic-link.strategy.ts` over `createInMemoryMagicLinkStore`, with the
delivery of `queue/jobs/magic-link.job.ts`. A request runs in three steps: it stores the
hash of a new token, it reads the issuer's clock and builds the delivery job, and the
queue takes the job. Requests interleave between steps, and the queue loses jobs on its
own when it evicts finished ones.

The queue ignores a job whose id it already holds. The id is made of the address and the
expiry, so two requests of one address that read the same millisecond share an id.
-/
namespace BoilerplateExpress.Auth.MagicLink

open List
open Text

/-- What the issuer and the store are built with: the digest, the directory (the address
on record for a user), and the two lifetimes, which are configured apart. -/
structure Settings where
  hashSecret : Text → Text
  findByEmail : Text → Option Text
  ttlSeconds : ℕ
  storeTtlSeconds : ℕ

structure MagicLinkRecord where
  email : Text
  expiresAt : ℕ
  deriving DecidableEq, Repr

abbrev MagicLinkStore := OrderedMap Text MagicLinkRecord

def MagicLinkStore.forget (links : MagicLinkStore) (email : Text) : MagicLinkStore :=
  links.filter (fun _ record => decide (record.email ≠ email))

def MagicLinkStore.issue (links : MagicLinkStore) (ttlSeconds : ℕ) (tokenHash email : Text)
    (now : ℕ) : MagicLinkStore :=
  (MagicLinkStore.forget links email).set tokenHash ⟨email, now + ttlSeconds * 1000⟩

/-- The record is deleted whether or not it has expired. -/
def MagicLinkStore.consume (links : MagicLinkStore) (tokenHash : Text) (now : ℕ) :
    Option Text × MagicLinkStore :=
  match links.get tokenHash with
  | none => (none, links)
  | some record =>
    (if record.expiresAt ≤ now then none else some record.email, links.delete tokenHash)

structure DeliverableMagicLink where
  email : Text
  token : Text
  expiresAt : ℕ
  deriving DecidableEq, Repr

structure JobEnvelope where
  payload : DeliverableMagicLink
  correlationId : Option Text
  deriving DecidableEq, Repr

def jobId (link : DeliverableMagicLink) : Text :=
  "magic-link:".toList ++ link.email ++ ':' :: natToText link.expiresAt

/-- The jobs the queue holds under their ids, and every job it ever took. -/
structure JobQueue where
  jobs : OrderedMap Text JobEnvelope
  accepted : List JobEnvelope

/-- Adding under an id the queue holds already is a no-op. -/
def JobQueue.add (queue : JobQueue) (id : Text) (envelope : JobEnvelope) : JobQueue :=
  if queue.jobs.get id = none then
    { jobs := queue.jobs.set id envelope, accepted := queue.accepted ++ [envelope] }
  else queue

/-- How far a request has come: its link is stored, or its job is on the way. -/
inductive Progress where
  | issued (email token : Text)
  | sending (link : DeliverableMagicLink) (correlationId : Option Text)
  deriving DecidableEq

def Progress.email : Progress → Text
  | .issued email _ => email
  | .sending link _ => link.email

def Progress.token : Progress → Text
  | .issued _ token => token
  | .sending link _ => link.token

structure State where
  links : MagicLinkStore
  calls : OrderedMap ℕ Progress
  queue : JobQueue

def State.start : State :=
  { links := OrderedMap.empty, calls := OrderedMap.empty, queue := ⟨OrderedMap.empty, []⟩ }

/-- The steps, with the tokens generated and the clock readings made in them. -/
inductive Action where
  | request (call : ℕ) (email token : Text) (now : ℕ)
  | send (call : ℕ) (correlationId : Option Text) (now : ℕ)
  | add (call : ℕ)
  | authenticate (token : Text) (now : ℕ)
  | evict (id : Text)

def step (settings : Settings) (s : State) : Action → Option State
  | .request call email token now =>
    if s.calls.get call = none then
      match settings.findByEmail email with
      | none => some s
      | some address =>
        some { s with
          links := MagicLinkStore.issue s.links settings.storeTtlSeconds
            (settings.hashSecret token) address now
          calls := s.calls.set call (.issued address token) }
    else none
  | .send call correlationId now =>
    match s.calls.get call with
    | some (.issued email token) =>
      let link := ⟨email, token, now + settings.ttlSeconds * 1000⟩
      some { s with calls := s.calls.set call (.sending link correlationId) }
    | _ => none
  | .add call =>
    match s.calls.get call with
    | some (.sending link correlationId) =>
      some { s with
        calls := s.calls.delete call
        queue := s.queue.add (jobId link) ⟨link, correlationId⟩ }
    | _ => none
  | .authenticate token now =>
    some { s with links := (MagicLinkStore.consume s.links (settings.hashSecret token) now).2 }
  | .evict id => some { s with queue := { s.queue with jobs := s.queue.jobs.delete id } }

/-- The address and the expiry of a job can be read back from its id. -/
theorem jobId_inj {link link'} (h : jobId link = jobId link') :
    link.email = link'.email ∧ link.expiresAt = link'.expiresAt := by
  have hdig (n : ℕ) : ':' ∉ (natToText n).reverse := by
    intro hmem
    have hrange := mem_natToText (mem_reverse.mp hmem)
    exact absurd hrange.2 (by decide)
  unfold jobId at h
  rw [append_assoc, append_assoc] at h
  -- the expiry has no colon, so the last one separates it from the address
  have hrev := congrArg reverse (append_cancel_left h)
  simp only [reverse_append, reverse_cons, append_assoc] at hrev
  obtain ⟨hexp, hemail⟩ :=
    append_separator_inj (hdig link.expiresAt) (hdig link'.expiresAt) hrev
  have hnat := congrArg digitsToNat (reverse_injective hexp)
  rw [digitsToNat_natToText, digitsToNat_natToText] at hnat
  exact ⟨reverse_injective hemail, hnat⟩

/-- Every job the queue holds stands under its own id. -/
def Keyed (s : State) : Prop :=
  ∀ id envelope, s.queue.jobs.get id = some envelope → id = jobId envelope.payload

lemma keyed_step (settings s t a) (hs : Keyed s) (h : step settings s a = some t) : Keyed t := by
  intro id envelope hget
  cases a <;> simp only [step] at h
  case request call email token now =>
    split_ifs at h with hfree
    cases hfind : settings.findByEmail email with
    | _ =>
      rw [hfind] at h
      cases h
      exact hs id envelope hget
  case send call correlationId now =>
    split at h
    · cases h
      exact hs id envelope hget
    · cases h
  case add call =>
    split at h
    · cases h
      simp only [JobQueue.add] at hget
      split_ifs at hget with habsent
      · rcases OrderedMap.get_set_eq_some.mp hget with ⟨hid, rfl⟩ | ⟨_, hold⟩
        · exact hid
        · exact hs id envelope hold
      · exact hs id envelope hget
    · cases h
  case authenticate token now =>
    cases h
    exact hs id envelope hget
  case evict gone =>
    cases h
    exact hs id envelope (OrderedMap.get_delete_eq_some.mp hget).2

section

variable (settings : Settings)

/-- A request that is still running issued this link. -/
def InProgress (s : State) (email hash : Text) : Prop :=
  ∃ call p, s.calls.get call = some p ∧ p.email = email ∧ settings.hashSecret p.token = hash

/-- The queue took a delivery job that carries this link. -/
def Sent (s : State) (email hash : Text) : Prop :=
  ∃ envelope ∈ s.queue.accepted, envelope.payload.email = email ∧
    settings.hashSecret envelope.payload.token = hash

/-- No request for the address is running. -/
def Settled (s : State) (email : Text) : Prop :=
  ∀ call p, s.calls.get call = some p → p.email ≠ email

/-- The link outstanding for the address was sent. -/
def LinkSent (s : State) (email : Text) : Prop :=
  ∀ hash record, s.links.get hash = some record → record.email = email →
    Sent settings s email hash

/-- Every outstanding link was sent, or is the link of a request still running. -/
def OutstandingSent (s : State) : Prop :=
  ∀ hash record, s.links.get hash = some record →
    InProgress settings s record.email hash ∨ Sent settings s record.email hash

def Outstanding (s : State) (link : DeliverableMagicLink) : Prop :=
  (s.links.get (settings.hashSecret link.token)).map MagicLinkRecord.email = some link.email

/-- When the queue is handed the job of the outstanding link, it holds no job for the
same address and expiry. -/
def NoTwin (s : State) : Action → Prop
  | .add call =>
    match s.calls.get call with
    | some (.sending link _) => Outstanding settings s link →
        ∀ e ∈ s.queue.jobs.entries,
          ¬ (e.2.payload.email = link.email ∧ e.2.payload.expiresAt = link.expiresAt)
    | _ => True
  | _ => True

instance (s : State) : ∀ a, Decidable (NoTwin settings s a)
  | .add call => by dsimp only [NoTwin, Outstanding]; split <;> infer_instance
  | .request .. | .send .. | .authenticate .. | .evict .. => isTrue trivial

variable {s : State} {call : ℕ} {correlationId : Option Text}

/-- Under the guard the queue takes the job of an outstanding link. -/
lemma get_jobId_eq_none {link} (hkeyed : Keyed s)
    (hcall : s.calls.get call = some (.sending link correlationId))
    (hguard : NoTwin settings s (.add call)) (hout : Outstanding settings s link) :
    s.queue.jobs.get (jobId link) = none := by
  simp only [NoTwin, hcall] at hguard
  rw [Option.eq_none_iff_forall_ne_some]
  intro envelope hget
  have hid := jobId_inj (hkeyed _ envelope hget)
  exact hguard hout _ ((OrderedMap.get_eq_some _ _ _).mp hget) ⟨hid.1.symm, hid.2.symm⟩

variable {t : State}

/-- The links of `t` were there in `s`, and what was running or sent still is. -/
lemma outstandingSent_of_le (hs : OutstandingSent settings s)
    (hlinks : ∀ hash record, t.links.get hash = some record → s.links.get hash = some record)
    (hcalls : ∀ email hash, InProgress settings s email hash → InProgress settings t email hash)
    (hacc : s.queue.accepted ⊆ t.queue.accepted) : OutstandingSent settings t := by
  intro hash record hget
  rcases hs hash record (hlinks hash record hget) with hrun | ⟨envelope, hmem, hsent⟩
  · exact .inl (hcalls _ _ hrun)
  · exact .inr ⟨envelope, hacc hmem, hsent⟩

variable {now : ℕ}

lemma get_consume_of_get {links tokenHash record} {hash}
    (h : (MagicLinkStore.consume links tokenHash now).2.get hash = some record) :
    links.get hash = some record := by
  unfold MagicLinkStore.consume at h
  split at h
  · exact h
  · exact (OrderedMap.get_delete_eq_some.mp h).2

variable {email : Text}

/-- A new link replaces the links of its address and is in progress. -/
lemma outstandingSent_request {token} (hs : OutstandingSent settings s)
    (h : step settings s (.request call email token now) = some t) :
    OutstandingSent settings t := by
  simp only [step] at h
  split_ifs at h with hfree
  cases hfind : settings.findByEmail email with
  | none =>
    rw [hfind] at h
    cases h
    exact hs
  | some address =>
    rw [hfind] at h
    cases h
    intro hash record hget
    rcases OrderedMap.get_set_eq_some.mp hget with ⟨rfl, rfl⟩ | ⟨_, hold⟩
    · exact .inl ⟨call, .issued address token, by simp, rfl, rfl⟩
    · simp only [MagicLinkStore.forget, OrderedMap.get_filter, Option.filter_eq_some_iff] at hold
      rcases hs hash record hold.1 with ⟨c, p, hc, hp⟩ | hsent
      · have hne : c ≠ call := by
          rintro rfl
          rw [hfree] at hc
          cases hc
        exact .inl ⟨c, p, OrderedMap.get_set_eq_some.mpr (.inr ⟨hne, hc⟩), hp⟩
      · exact .inr hsent

lemma outstandingSent_send (hs : OutstandingSent settings s)
    (h : step settings s (.send call correlationId now) = some t) : OutstandingSent settings t := by
  simp only [step] at h
  split at h
  · rename_i email token hcall
    cases h
    refine outstandingSent_of_le settings hs (fun _ _ hget => hget) ?_ (fun _ hmem => hmem)
    rintro address hash ⟨c, p, hc, hp⟩
    by_cases hsame : c = call
    · subst hsame
      cases hcall.symm.trans hc
      exact ⟨c, .sending ⟨email, token, now + settings.ttlSeconds * 1000⟩ correlationId,
        by simp, hp⟩
    · exact ⟨c, p, OrderedMap.get_set_eq_some.mpr (.inr ⟨hsame, hc⟩), hp⟩
  · cases h

/-- The request ends here: its link is the outstanding one only if the queue took it. -/
lemma outstandingSent_add (hkeyed : Keyed s) (hs : OutstandingSent settings s)
    (hguard : NoTwin settings s (.add call)) (h : step settings s (.add call) = some t) :
    OutstandingSent settings t := by
  simp only [step] at h
  split at h
  · rename_i link correlationId hcall
    cases h
    intro hash record hget
    rcases hs hash record hget with ⟨c, p, hc, hemail, hhash⟩ | ⟨envelope, hmem, hsent⟩
    · by_cases hsame : c = call
      · subst hsame
        cases hcall.symm.trans hc
        have hout : Outstanding settings s link := by
          simp only [Progress.token, Progress.email] at hhash hemail
          simp [Outstanding, hhash, hget, hemail]
        have habs := get_jobId_eq_none settings hkeyed hcall hguard hout
        refine .inr ⟨⟨link, correlationId⟩, ?_, hemail, hhash⟩
        simp [JobQueue.add, habs]
      · exact .inl ⟨c, p, OrderedMap.get_delete_eq_some.mpr ⟨hsame, hc⟩, hemail, hhash⟩
    · refine .inr ⟨envelope, ?_, hsent⟩
      simp only [JobQueue.add]
      split_ifs
      · exact mem_append_left _ hmem
      · exact hmem
  · cases h

lemma outstandingSent_step {a} (hkeyed : Keyed s) (hs : OutstandingSent settings s)
    (hguard : NoTwin settings s a) (h : step settings s a = some t) :
    OutstandingSent settings t := by
  cases a with
  | request call email token now => exact outstandingSent_request settings hs h
  | send call correlationId now => exact outstandingSent_send settings hs h
  | add call => exact outstandingSent_add settings hkeyed hs hguard h
  | authenticate token now =>
    cases h
    exact outstandingSent_of_le settings hs (fun hash record hget => get_consume_of_get hget)
      (fun _ _ hrun => hrun) (fun _ hmem => hmem)
  | evict id =>
    cases h
    exact outstandingSent_of_le settings hs (fun _ _ hget => hget)
      (fun _ _ hrun => hrun) (fun _ hmem => hmem)

lemma outstandingSent_run {as}
    (hguard : Machine.Guarded (step settings) (NoTwin settings) State.start as)
    (hexec : Machine.exec (step settings) State.start as = some t) :
    OutstandingSent settings t := by
  have hboth := Machine.exec_invariant_of_guarded (fun s => Keyed s ∧ OutstandingSent settings s)
    (fun s a u hs hok hu => ⟨keyed_step settings s u a hs.1 hu,
      outstandingSent_step settings hs.1 hs.2 hok hu⟩)
    ⟨by simp [Keyed, State.start], by simp [OutstandingSent, State.start]⟩ hguard hexec
  exact hboth.2

lemma linkSent_of_settled (ht : OutstandingSent settings t) (hset : Settled t email) :
    LinkSent settings t email := by
  intro hash record hget hemail
  rcases ht hash record hget with ⟨call, p, hcall, hp, _⟩ | hsent
  · exact absurd (hp.trans hemail) (hset call p hcall)
  · exact hemail ▸ hsent

end

/-- The outstanding link is the one sent, in every run in which no job of an outstanding
link finds a job for the same address and expiry in the queue. -/
theorem outstanding_link_sent_without_twin (settings : Settings) (as : List Action)
    (hguard : Machine.Guarded (step settings) (NoTwin settings) State.start as) (t : State)
    (hexec : Machine.exec (step settings) State.start as = some t) (email : Text)
    (hsettled : Settled t email) : LinkSent settings t email :=
  linkSent_of_settled settings (outstandingSent_run settings hguard hexec) hsettled

/-- One known address `u`, tokens that are their own digest, links for a quarter of an hour. -/
def sampleSettings : Settings where
  hashSecret := id
  findByEmail email := if email = ['u'] then some ['u'] else none
  ttlSeconds := 900
  storeTtlSeconds := 900

/-- Two requests one after the other; the second reads the clock at `now`. -/
def sampleRequests (now : ℕ) : List Action :=
  [.request 1 ['u'] ['a'] 5, .send 1 none 5, .add 1,
    .request 2 ['u'] ['b'] now, .send 2 none now, .add 2]

theorem outstanding_link_sent_next_millisecond :
    ∃ t, Machine.exec (step sampleSettings) State.start (sampleRequests 6) = some t ∧
      LinkSent sampleSettings t ['u'] := by
  obtain ⟨t, ht⟩ : ∃ t, Machine.exec (step sampleSettings) State.start (sampleRequests 6)
      = some t := ⟨_, rfl⟩
  have hsettled : Settled t ['u'] := by
    cases ht
    intro call p hget
    cases hget
  exact ⟨t, ht, outstanding_link_sent_without_twin sampleSettings (sampleRequests 6)
    (by decide +kernel) t ht ['u'] hsettled⟩

/-- Two requests in one millisecond: the queue keeps the first job, the store the second
link. -/
theorem same_millisecond_link_lost :
    ¬ ∀ as t, Machine.exec (step sampleSettings) State.start as = some t →
      ∀ email, Settled t email → LinkSent sampleSettings t email := by
  intro h
  obtain ⟨t, ht, hacc, hget, hcalls⟩ : ∃ t,
      Machine.exec (step sampleSettings) State.start (sampleRequests 5) = some t ∧
      t.queue.accepted = [⟨⟨['u'], ['a'], 900005⟩, none⟩] ∧
      t.links.get ['b'] = some ⟨['u'], 900005⟩ ∧ t.calls.entries = [] := by
    refine ⟨_, rfl, by decide +kernel, by decide +kernel, by decide +kernel⟩
  have hset : Settled t ['u'] := by
    intro call p hcall
    have hmem := (OrderedMap.get_eq_some t.calls call p).mp hcall
    rw [hcalls] at hmem
    cases hmem
  obtain ⟨envelope, hmem, _, hhash⟩ := h _ t ht ['u'] hset ['b'] _ hget rfl
  rw [hacc, mem_singleton] at hmem
  subst hmem
  exact absurd hhash (by decide)

end BoilerplateExpress.Auth.MagicLink
