import TierCache.Proofs.ServiceFrame

/-!
# Shutting the service down

Each fiber holds a stake in the service (`Stake`), and the host accounts for all of them
(`Host.Serving`).

Main statement: `shutdown_leaves_service_at_rest`.
-/

namespace TierCache

/-- How far a shutdown has come. -/
inductive ShutdownStep where
  /-- The loops are told to stop and the service reads not ready. -/
  | cancelled
  /-- Every loop has ended. -/
  | unlooped
  /-- The warming jobs to wait for are taken. -/
  | draining
  /-- No warming job runs and no pattern is claimed. -/
  | drained
  /-- No write behind is pending. -/
  | flushed
  deriving DecidableEq

namespace ShutdownStep

/-- The steps of a shutdown, in order. -/
def rank : ShutdownStep → Nat
  | cancelled => 0
  | unlooped => 1
  | draining => 2
  | drained => 3
  | flushed => 4

/-- What a shutdown that has come as far as `stop` guarantees of the host; each step keeps what the
ones before it gave. -/
structure Holds (h : Host) (stop : ShutdownStep) : Prop where
  cancelled : h.service.map (·.cancelled) = some true
  unready : h.ready = false
  unlooped : 1 ≤ stop.rank → h.service.map (·.running) = some 0
  taken : 2 ≤ stop.rank → ∀ w, h.warmer = some w → w.undrained = []
  idle : 3 ≤ stop.rank → ∀ w, h.warmer = some w → w.running = [] ∧ w.inFlight = []
  flushed : 4 ≤ stop.rank → h.cache.writeBehind.pending = 0

end ShutdownStep

/-- What a fiber is to the service's lifecycle. -/
inductive Role where
  /-- The session before it shuts down: whether one of its starts has run, and how many of the loops
  its start counted it has yet to ask for. -/
  | session (started : Bool) (owed : Nat)
  /-- The session shutting down. -/
  | closing (stop : ShutdownStep)
  /-- A background loop that has not ended. -/
  | loop
  /-- A job, or a loop that has ended. -/
  | job
  deriving DecidableEq

namespace Role

/-- The loops a role has counted and not yet asked for. -/
def owed : Role → Nat
  | session _ k => k
  | closing _ => 0
  | loop => 0
  | job => 0

/-- Whether the role is the session's, shutting down or not. -/
def leads : Role → Bool
  | session .. => true
  | closing _ => true
  | loop => false
  | job => false

/-- Whether a fiber in the role may dispatch warming rules: a loop, or the session before it shuts
down. -/
def dispatches : Role → Bool
  | session .. => true
  | closing _ => false
  | loop => true
  | job => false

def isLoop : Role → Bool
  | session .. => false
  | closing _ => false
  | loop => true
  | job => false

attribute [simp] owed.eq_1 owed.eq_2 owed.eq_3 owed.eq_4 leads.eq_1 leads.eq_2 leads.eq_3 leads.eq_4
  dispatches.eq_1 dispatches.eq_2 dispatches.eq_3 dispatches.eq_4 isLoop.eq_1 isLoop.eq_2 isLoop.eq_3
  isLoop.eq_4

/-- What the host owes a role: the service is started exactly when the session started it, and a
shutdown sees what its steps gave. -/
def Holds (h : Host) : Role → Prop
  | session started _ => h.service.map (·.started) = some started
  | closing stop => stop.Holds h
  | loop | job => True

end Role

/-- A fiber's stake in the service: its share of the warming scheduler, and its role. -/
structure Stake where
  warm : Share := {}
  role : Role

/-- The stakes account for the host: no job waits to start, the scheduler is there exactly when
warming is on and its books balance against the shares, only a loop or the session dispatches,
only the session drains, there is one session, the loops the lifecycle counts as running are the loops held and the loops
the session has counted and not yet asked for (none before a start), and the host owes each role
what it should. -/
structure Host.Serving (warming : Bool) (h : Host) (S : Multiset Stake) : Prop where
  idle : h.requested = []
  scheduler : h.warmer.isSome = warming
  books : ∀ w, h.warmer = some w → w.books.Balanced (S.map (·.warm))
  dispatchers : ∀ o ∈ S, o.warm.claim.dispatching? ≠ none → o.role.dispatches = true
  drainers : ∀ o ∈ S, o.warm.drain.held = true → o.role.leads = true
  alone : S.countP (·.role.leads) ≤ 1
  loops : ∃ life, h.service = some life ∧
    life.running = S.countP (·.role.isLoop) + (S.map (·.role.owed)).sum ∧
    (life.started = false → life.running = 0)
  roles : ∀ o ∈ S, o.role.Holds h

/-- The stake a job starts with: a warming job holds its rule's claim and its number, a loop its
place among the running loops. -/
def Job.stake : Job → Stake
  | .warm id r _ _ => { warm := { claim := .task r.pattern id }, role := .job }
  | .loop _ => { role := .loop }
  | .writeBehind .. => { role := .job }

/-- The fibers of a service share it: the stakes account for the host, a job starts with its
stake, any job may be asked for, and a fiber ends as a job holding no claim. -/
def serviceShares (warming : Bool) : Sharing Host Job Stake where
  Inv := Host.Serving warming
  hold := Job.stake
  Spawnable _ := True
  Ended o := o.role = .job ∧ o.warm.claim = .free

/-! ## What a step keeps -/

-- A calm change keeps the scheduler's books, so a scheduler after it had the same books before.
theorem Host.Calm.books_eq {h h' : Host} (hc : Host.Calm h h') {w' : Warmer} (hw' : h'.warmer = some w') :
    ∃ w, h.warmer = some w ∧ w.books = w'.books := by
  have hbooks := hc.2
  rw [hw'] at hbooks
  exact Option.map_eq_some_iff.1 hbooks.symm

theorem Host.with_requested_nil {h : Host} (hr : h.requested = []) : { h with requested := [] } = h := by
  cases h
  simp_all

namespace ShutdownStep

variable {h h' : Host} {stop : ShutdownStep}

theorem Holds.of_still (hs : Host.Still h h') (hh : stop.Holds h) : stop.Holds h' := by
  refine ⟨hs.service ▸ hh.cancelled, hs.ready ▸ hh.unready, fun hr => hs.service ▸ hh.unlooped hr,
    fun hr w' hw' => ?_, fun hr w' hw' => ?_, fun hr => ?_⟩
  · obtain ⟨w, hw, hb⟩ := hs.calm.books_eq hw'
    have := congrArg Warmer.Books.undrained hb
    simp only [Warmer.books] at this
    rw [← this]
    exact hh.taken hr w hw
  · obtain ⟨w, hw, hb⟩ := hs.calm.books_eq hw'
    have hrun := congrArg Warmer.Books.running hb
    have hflight := congrArg Warmer.Books.inFlight hb
    simp only [Warmer.books] at hrun hflight
    rw [← hrun, ← hflight]
    exact hh.idle hr w hw
  · have := hs.pending
    have := hh.flushed hr
    omega

-- A new scheduler keeps a shutdown's steps when it keeps the jobs taken and the idleness the
-- steps gave.
theorem Holds.of_warmer {x : Option Warmer} (hh : stop.Holds h)
    (htaken : 2 ≤ stop.rank → ∀ w', x = some w' → w'.undrained = [])
    (hidle : 3 ≤ stop.rank → ∀ w', x = some w' → w'.running = [] ∧ w'.inFlight = []) :
    stop.Holds { h with warmer := x } :=
  ⟨hh.cancelled, hh.unready, hh.unlooped, htaken, hidle, hh.flushed⟩

/-! Each step of a shutdown, from what the steps before it gave. -/

theorem Holds.cancel (hc : h.service.map (·.cancelled) = some true) (hr : h.ready = false) :
    Holds h .cancelled :=
  ⟨hc, hr, fun h1 => absurd h1 (by decide), fun h2 => absurd h2 (by decide),
    fun h3 => absurd h3 (by decide), fun h4 => absurd h4 (by decide)⟩

theorem Holds.unloop (hh : Holds h .cancelled) (hrun : h.service.map (·.running) = some 0) :
    Holds h .unlooped :=
  ⟨hh.cancelled, hh.unready, fun _ => hrun, fun h2 => absurd h2 (by decide),
    fun h3 => absurd h3 (by decide), fun h4 => absurd h4 (by decide)⟩

theorem Holds.take (hh : Holds h .unlooped) (w : Warmer) :
    Holds { h with warmer := some { w with undrained := [] } } .draining :=
  ⟨hh.cancelled, hh.unready, fun _ => hh.unlooped (by decide),
    fun _ w' hw' => by rw [← Option.some.inj hw'], fun h3 => absurd h3 (by decide),
    fun h4 => absurd h4 (by decide)⟩

theorem Holds.drain (hh : Holds h .draining)
    (hidle : ∀ w, h.warmer = some w → w.running = [] ∧ w.inFlight = []) : Holds h .drained :=
  ⟨hh.cancelled, hh.unready, fun _ => hh.unlooped (by decide), fun _ => hh.taken (by decide),
    fun _ => hidle, fun h4 => absurd h4 (by decide)⟩

-- With no scheduler there is no warming job to wait for.
theorem Holds.flush (hh : stop.Holds h) (hstop : stop = .drained ∨ stop = .unlooped ∧ h.warmer = none)
    (hp : h.cache.writeBehind.pending = 0) : Holds h .flushed := by
  rcases hstop with rfl | ⟨rfl, hw⟩
  · exact ⟨hh.cancelled, hh.unready, fun _ => hh.unlooped (by decide), fun _ => hh.taken (by decide),
      fun _ => hh.idle (by decide), fun _ => hp⟩
  · exact ⟨hh.cancelled, hh.unready, fun _ => hh.unlooped (by decide),
      fun _ w' hw' => by simp [hw] at hw', fun _ w' hw' => by simp [hw] at hw', fun _ => hp⟩

end ShutdownStep

namespace Role.Holds

variable {h h' : Host} {r : Role}

theorem of_still (hs : Host.Still h h') (hh : r.Holds h) : r.Holds h' := by
  cases r with
  | session started owed =>
    show h'.service.map (·.started) = some started
    rw [hs.service]
    exact hh
  | closing stop => exact ShutdownStep.Holds.of_still hs hh
  | loop => trivial
  | job => trivial

-- Before a shutdown gets past its first step, the host owes it only the cancelled loops and the
-- readiness, and a session only its start.
theorem of_early (hh : r.Holds h) (hr : ∀ stop, r = .closing stop → stop.rank = 0)
    (hstarted : h'.service.map (·.started) = h.service.map (·.started))
    (hcancelled : h'.service.map (·.cancelled) = h.service.map (·.cancelled))
    (hready : h'.ready = h.ready) : r.Holds h' := by
  cases r with
  | session started owed =>
    show h'.service.map (·.started) = some started
    rw [hstarted]
    exact hh
  | closing stop =>
    have h0 := hr stop rfl
    exact ⟨hcancelled ▸ hh.cancelled, hready ▸ hh.unready, fun h1 => absurd h1 (by omega),
      fun h2 => absurd h2 (by omega), fun h3 => absurd h3 (by omega), fun h4 => absurd h4 (by omega)⟩
  | loop => trivial
  | job => trivial

-- A loop or a job is owed nothing.
theorem of_follows (hr : r.leads = false) : r.Holds h := by
  cases r with
  | session started owed => simp at hr
  | closing stop => simp at hr
  | loop => trivial
  | job => trivial

theorem of_warmer {x : Option Warmer} (hh : r.Holds h)
    (hr : ∀ stop, r = .closing stop → stop.Holds { h with warmer := x }) :
    r.Holds { h with warmer := x } := by
  cases r with
  | session started owed => exact hh
  | closing stop => exact hr stop rfl
  | loop => trivial
  | job => trivial

end Role.Holds

/-- The stake with its warming claim replaced. -/
def Stake.withClaim (o : Stake) (c : Claim) : Stake := { o with warm := { o.warm with claim := c } }

namespace Stake

variable {o : Stake} {c c' : Claim}

@[simp] theorem withClaim_role : (o.withClaim c).role = o.role := rfl

@[simp] theorem withClaim_claim : (o.withClaim c).warm.claim = c := rfl

@[simp] theorem withClaim_drain : (o.withClaim c).warm.drain = o.warm.drain := rfl

@[simp] theorem withClaim_withClaim : (o.withClaim c).withClaim c' = o.withClaim c' := rfl

theorem withClaim_self (ho : o.warm.claim = c) : o.withClaim c = o := by
  obtain ⟨⟨c₀, d⟩, r⟩ := o
  cases ho
  rfl

end Stake

namespace Host.Serving

variable {warming : Bool} {h h' : Host} {o o' : Stake} {M S : Multiset Stake}

theorem of_still (hI : h.Serving warming S) (hs : Host.Still h h') : h'.Serving warming S where
  idle := hs.calm.1.trans hI.idle
  scheduler := by
    rw [← hI.scheduler]
    simpa using congrArg Option.isSome hs.calm.2
  books w' hw' := by
    obtain ⟨w, hw, hb⟩ := hs.calm.books_eq hw'
    rw [← hb]
    exact hI.books w hw
  dispatchers := hI.dispatchers
  drainers := hI.drainers
  alone := hI.alone
  loops := hs.service ▸ hI.loops
  roles o ho := (hI.roles o ho).of_still hs

-- What the host owes the fiber holding `o`.
theorem holds (hI : h.Serving warming (o ::ₘ M)) {r : Role} (ho : o.role = r) : r.Holds h :=
  ho ▸ hI.roles o (Multiset.mem_cons_self _ _)

-- Stakes of jobs that hold nothing change nothing the invariant counts.
theorem add_idle (hI : h.Serving warming S) (T : Multiset Stake) (hT : ∀ t ∈ T, t = { role := .job }) :
    h.Serving warming (S + T) where
  idle := hI.idle
  scheduler := hI.scheduler
  books w hw := by
    rw [Multiset.map_add]
    refine (hI.books w hw).add_quiet fun x hx => ?_
    obtain ⟨t, ht, rfl⟩ := Multiset.mem_map.1 hx
    rw [hT t ht]
  dispatchers o ho := by
    rcases Multiset.mem_add.1 ho with ho | ho
    · exact hI.dispatchers o ho
    · rw [hT o ho]
      simp
  drainers o ho := by
    rcases Multiset.mem_add.1 ho with ho | ho
    · exact hI.drainers o ho
    · rw [hT o ho]
      simp
  alone := by
    rw [Multiset.countP_add, (Multiset.countP_eq_zero (s := T)).2 fun t ht => by rw [hT t ht]; simp]
    exact hI.alone
  loops := by
    obtain ⟨life, hlife, hrun, hstart⟩ := hI.loops
    have hcount : T.countP (·.role.isLoop) = 0 :=
      (Multiset.countP_eq_zero (s := T)).2 fun t ht => by rw [hT t ht]; simp
    have howed : (T.map (·.role.owed)).sum = 0 :=
      Multiset.sum_eq_zero fun k hk => by
        obtain ⟨t, ht, rfl⟩ := Multiset.mem_map.1 hk
        rw [hT t ht]
        rfl
    exact ⟨life, hlife, by
      rw [Multiset.countP_add, Multiset.map_add, Multiset.sum_add, hcount, howed, add_zero, add_zero, hrun],
      hstart⟩
  roles o ho := by
    rcases Multiset.mem_add.1 ho with ho | ho
    · exact hI.roles o ho
    · rw [hT o ho]
      trivial

-- There is one session: beside a stake that leads, no other does.
theorem lone (hI : h.Serving warming (o ::ₘ M)) (ho : o.role.leads = true) :
    ∀ c ∈ M, c.role.leads = false := by
  intro c hc
  by_contra hne
  have hpos : 0 < M.countP (·.role.leads) := Multiset.countP_pos.2 ⟨c, hc, by simpa using hne⟩
  have := hI.alone
  simp only [Multiset.countP_cons, ho, ↓reduceIte] at this
  omega

-- While a loop or the session before its shutdown holds a stake, no shutdown is past its first step:
-- a shutdown waits for the loops, and there is one session.
theorem early (hI : h.Serving warming (o ::ₘ M)) (ho : o.role.dispatches = true) :
    ∀ c ∈ o ::ₘ M, ∀ stop, c.role = .closing stop → stop.rank = 0 := by
  intro c hc stop hstop
  rcases Multiset.mem_cons.1 hc with rfl | hc
  · simp [hstop] at ho
  cases hr : o.role with
  | session b k =>
    have := hI.lone (by simp [hr]) c hc
    simp [hstop] at this
  | loop =>
    have hstopped : stop.Holds h := by
      simpa [hstop, Role.Holds] using hI.roles c (Multiset.mem_cons_of_mem hc)
    obtain ⟨life, hlife, hrun, -⟩ := hI.loops
    have hloop : 0 < (o ::ₘ M).countP (·.role.isLoop) :=
      Multiset.countP_pos.2 ⟨o, Multiset.mem_cons_self _ _, by simp [hr]⟩
    by_contra hrank
    have h0 := hstopped.unlooped (by omega)
    rw [hlife] at h0
    simp only [Option.map_some, Option.some.injEq] at h0
    omega
  | closing _ => simp [hr] at ho
  | job => simp [hr] at ho

-- Once the loops have ended, nothing dispatches: the session is shutting down.
theorem quiet {stop : ShutdownStep} (hI : h.Serving warming (o ::ₘ M)) (ho : o.role = .closing stop)
    (hrank : 1 ≤ stop.rank) : ∀ c ∈ o ::ₘ M, c.warm.claim.dispatching? = none := by
  have hh : stop.Holds h := hI.holds ho
  obtain ⟨life, hlife, hrun, -⟩ := hI.loops
  have h0 : life.running = 0 := by
    have := hh.unlooped hrank
    rw [hlife] at this
    simpa using this
  intro c hc
  by_contra hd
  have hdisp := hI.dispatchers c hc hd
  rcases Multiset.mem_cons.1 hc with rfl | hc
  · simp [ho] at hdisp
  cases hr : c.role with
  | session b k =>
    have := hI.lone (by simp [ho]) c hc
    simp [hr] at this
  | closing _ => simp [hr] at hdisp
  | job => simp [hr] at hdisp
  | loop =>
    have : 0 < (o ::ₘ M).countP (·.role.isLoop) :=
      Multiset.countP_pos.2 ⟨c, Multiset.mem_cons_of_mem hc, by simp [hr]⟩
    omega

/-- One step of the invariant: a host with no job waiting, the scheduler there exactly when it was
and its books balancing against the fiber's new warming share whenever the old books balanced
against the old one, the lifecycle counting the loops of the new stakes, and each role owed what it
should, accounts for the new stakes. -/
theorem step (hI : h.Serving warming (o ::ₘ M)) (hidle : h'.requested = [])
    (hsched : h'.warmer.isSome = h.warmer.isSome)
    (hbooks : ∀ w', h'.warmer = some w' → ∃ w, h.warmer = some w ∧
      (w.books.Balanced (o.warm ::ₘ M.map (·.warm)) → w'.books.Balanced (o'.warm ::ₘ M.map (·.warm))))
    (hdisp : o'.warm.claim.dispatching? ≠ none → o'.role.dispatches = true)
    (hheld : o'.warm.drain.held = o.warm.drain.held) (hleads : o'.role.leads = o.role.leads)
    (hloops : ∃ life, h'.service = some life ∧
      life.running = (o' ::ₘ M).countP (·.role.isLoop) + ((o' ::ₘ M).map (·.role.owed)).sum ∧
      (life.started = false → life.running = 0))
    (hroles : ∀ c ∈ o' ::ₘ M, c.role.Holds h') : h'.Serving warming (o' ::ₘ M) where
  idle := hidle
  scheduler := hsched.trans hI.scheduler
  books w' hw' := by
    obtain ⟨w, hw, hb⟩ := hbooks w' hw'
    simpa using hb (by simpa using hI.books w hw)
  dispatchers c hc := by
    rcases Multiset.mem_cons.1 hc with rfl | hc
    · exact hdisp
    · exact hI.dispatchers c (Multiset.mem_cons_of_mem hc)
  drainers c hc hd := by
    rcases Multiset.mem_cons.1 hc with rfl | hc
    · exact hleads ▸ hI.drainers o (Multiset.mem_cons_self _ _) (hheld ▸ hd)
    · exact hI.drainers c (Multiset.mem_cons_of_mem hc) hd
  alone := by simpa [Multiset.countP_cons, hleads] using hI.alone
  loops := hloops
  roles := hroles

-- The lifecycle as it was counts the loops of a new stake that counts as many.
theorem loops_same (hI : h.Serving warming (o ::ₘ M)) (hs : h'.service = h.service)
    (hloop : o'.role.isLoop = o.role.isLoop) (howed : o'.role.owed = o.role.owed) :
    ∃ life, h'.service = some life ∧
      life.running = (o' ::ₘ M).countP (·.role.isLoop) + ((o' ::ₘ M).map (·.role.owed)).sum ∧
      (life.started = false → life.running = 0) := by
  simpa [hs, Multiset.countP_cons, hloop, howed] using hI.loops

-- The host unchanged, a fiber may take another stake that the books balance against, holding the
-- right to drain and counted as the old one was, and owed what the host gives.
theorem reshare (hI : h.Serving warming (o ::ₘ M))
    (hbooks : ∀ w, h.warmer = some w → w.books.Balanced (o.warm ::ₘ M.map (·.warm)) →
      w.books.Balanced (o'.warm ::ₘ M.map (·.warm)))
    (hdisp : o'.warm.claim.dispatching? ≠ none → o'.role.dispatches = true)
    (hheld : o'.warm.drain.held = o.warm.drain.held)
    (hcount : o'.role.leads = o.role.leads ∧ o'.role.isLoop = o.role.isLoop ∧ o'.role.owed = o.role.owed)
    (hholds : o'.role.Holds h) : h.Serving warming (o' ::ₘ M) := by
  refine hI.step hI.idle rfl (fun w hw => ⟨w, hw, hbooks w hw⟩) hdisp hheld hcount.1
    (hI.loops_same rfl hcount.2.1 hcount.2.2) fun c hc => ?_
  rcases Multiset.mem_cons.1 hc with rfl | hc
  · exact hholds
  · exact hI.roles c (Multiset.mem_cons_of_mem hc)

/-- A fiber asking for a job hands it a stake: the new stakes account for the host when the books
balance against both, neither dispatches out of its role, the fiber keeps the right to drain as it
held it and the job neither drains nor leads, and the lifecycle counts the loops of both. -/
theorem hand (hI : h.Serving warming (o ::ₘ M)) {t : Stake}
    (hbooks : ∀ w, h.warmer = some w → w.books.Balanced (o.warm ::ₘ M.map (·.warm)) →
      w.books.Balanced (o'.warm ::ₘ t.warm ::ₘ M.map (·.warm)))
    (hdisp : o'.warm.claim.dispatching? ≠ none → o'.role.dispatches = true)
    (htdisp : t.warm.claim.dispatching? = none) (hheld : o'.warm.drain.held = o.warm.drain.held)
    (htheld : t.warm.drain.held = false) (hleads : o'.role.leads = o.role.leads)
    (htleads : t.role.leads = false)
    (hloops : ∃ life, h.service = some life ∧
      life.running = (o' ::ₘ t ::ₘ M).countP (·.role.isLoop) + ((o' ::ₘ t ::ₘ M).map (·.role.owed)).sum ∧
      (life.started = false → life.running = 0))
    (hholds : o'.role.Holds h) (htholds : t.role.Holds h) : h.Serving warming (o' ::ₘ t ::ₘ M) where
  idle := hI.idle
  scheduler := hI.scheduler
  books w hw := by simpa using hbooks w hw (by simpa using hI.books w hw)
  dispatchers c hc := by
    rcases Multiset.mem_cons.1 hc with rfl | hc
    · exact hdisp
    rcases Multiset.mem_cons.1 hc with rfl | hc
    · exact fun hd => absurd htdisp hd
    · exact hI.dispatchers c (Multiset.mem_cons_of_mem hc)
  drainers c hc hd := by
    rcases Multiset.mem_cons.1 hc with rfl | hc
    · exact hleads ▸ hI.drainers o (Multiset.mem_cons_self _ _) (hheld ▸ hd)
    rcases Multiset.mem_cons.1 hc with rfl | hc
    · simp [htheld] at hd
    · exact hI.drainers c (Multiset.mem_cons_of_mem hc) hd
  alone := by
    have := hI.alone
    simp only [Multiset.countP_cons, hleads, htleads, Bool.false_eq_true, ↓reduceIte, add_zero] at this ⊢
    exact this
  loops := hloops
  roles c hc := by
    rcases Multiset.mem_cons.1 hc with rfl | hc
    · exact hholds
    rcases Multiset.mem_cons.1 hc with rfl | hc
    · exact htholds
    · exact hI.roles c (Multiset.mem_cons_of_mem hc)

end Host.Serving

/-! ### Changes that keep the stakes -/

section Keeps

variable {warming : Bool} {o o' : Stake} {s : Host}

-- A change that asks for no job keeps the stakes when they account for the host after it.
theorem keeps_of {g : Host → Host} (hreq : (g s).requested = s.requested)
    (hk : ∀ M, s.Serving warming (o ::ₘ M) → (g s).Serving warming (o' ::ₘ M)) :
    Stage.Keeps Host.stage (serviceShares warming) o g s o' := by
  intro M hI
  have hnil : (g s).requested = [] := hreq.trans hI.idle
  simp only [Host.stage_takeJobs, hnil, List.not_mem_nil, false_imp_iff, implies_true,
    List.map_nil, Multiset.coe_nil, Multiset.add_zero, true_and, Host.with_requested_nil hnil]
  exact hk M hI

theorem keeps_still {g : Host → Host} (hs : Host.Still s (g s)) :
    Stage.Keeps Host.stage (serviceShares warming) o g s o :=
  keeps_of hs.calm.1 fun _ hI => hI.of_still hs

-- The session's requests schedule writes behind; the jobs start holding nothing.
theorem keeps_busy {g : Host → Host} {b : Bool} {k : Nat} (ho : o.role = .session b k)
    (hs : Host.Busy s (g s)) : Stage.Keeps Host.stage (serviceShares warming) o g s o := by
  intro M hI
  obtain ⟨js, hjs, hwb⟩ := hs.jobs
  rw [hI.idle, List.nil_append] at hjs
  have hquiet : ∀ t ∈ (↑(js.map Job.stake) : Multiset Stake), t = { role := .job } := by
    intro t ht
    obtain ⟨j, hj, rfl⟩ := List.mem_map.1 (Multiset.mem_coe.1 ht)
    cases j with
    | writeBehind => rfl
    | warm => exact (hwb _ hj).elim
    | loop => exact (hwb _ hj).elim
  simp only [Host.stage_takeJobs, hjs]
  refine ⟨fun _ _ => trivial, ?_⟩
  rw [← Multiset.cons_add]
  refine Host.Serving.add_idle ?_ _ hquiet
  have hlone := Host.Serving.lone hI (by simp [ho])
  exact {
    idle := rfl
    scheduler := by
      rw [← hI.scheduler]
      simpa using congrArg Option.isSome hs.books
    books := fun w' hw' => by
      have hbooks := hs.books
      simp only at hw'
      rw [hw'] at hbooks
      obtain ⟨w, hw, hb⟩ := Option.map_eq_some_iff.1 hbooks.symm
      rw [← hb]
      exact hI.books w hw
    dispatchers := hI.dispatchers
    drainers := hI.drainers
    alone := hI.alone
    loops := hs.service ▸ hI.loops
    roles := fun c hc => by
      refine (hI.roles c hc).of_early (fun stop hstop => ?_) (by simp [hs.service])
        (by simp [hs.service]) hs.ready
      rcases Multiset.mem_cons.1 hc with rfl | hc
      · simp [ho] at hstop
      · simpa [hstop] using hlone c hc }

-- A change of the scheduler alone keeps the stakes when the books balance against the fiber's new
-- share, the new stake holds the right to drain and is counted as the old one was, and the roles
-- are owed what the host gives.
theorem keeps_warmer {g : Host → Host} {x : Option Warmer}
    (hg : g s = { s with warmer := x }) (hx : x.isSome = s.warmer.isSome)
    (hbooks : ∀ w M, s.warmer = some w → w.books.Balanced (o.warm ::ₘ M) →
      ∃ w', x = some w' ∧ w'.books.Balanced (o'.warm ::ₘ M))
    (hdisp : o'.warm.claim.dispatching? ≠ none → o'.role.dispatches = true)
    (hheld : o'.warm.drain.held = o.warm.drain.held)
    (hcount : o'.role.leads = o.role.leads ∧ o'.role.isLoop = o.role.isLoop ∧ o'.role.owed = o.role.owed)
    (hroles : ∀ M, s.Serving warming (o ::ₘ M) → ∀ c ∈ o' ::ₘ M, c.role.Holds { s with warmer := x }) :
    Stage.Keeps Host.stage (serviceShares warming) o g s o' := by
  refine keeps_of (by rw [hg]) fun M hI => ?_
  rw [hg]
  refine Host.Serving.step hI hI.idle hx (fun w' hw' => ?_) hdisp hheld hcount.1
    (hI.loops_same rfl hcount.2.1 hcount.2.2) (hroles M hI)
  cases hw : s.warmer with
  | none =>
    rw [hw] at hx
    simp [show x = some w' from hw'] at hx
  | some w =>
    refine ⟨w, rfl, fun hb => ?_⟩
    obtain ⟨w'', hx', hb'⟩ := hbooks w _ hw hb
    obtain rfl : w'' = w' := Option.some.inj (hx'.symm.trans hw')
    exact hb'

-- A change of the scheduler alone by a loop or by the session before its shutdown: no shutdown is
-- far enough to see it.
theorem keeps_dispatch {g : Host → Host} {x : Option Warmer} (ho : o.role.dispatches = true)
    (hrole : o'.role = o.role) (hheld : o'.warm.drain.held = o.warm.drain.held) (hg : g s = { s with warmer := x }) (hx : x.isSome = s.warmer.isSome)
    (hbooks : ∀ w M, s.warmer = some w → w.books.Balanced (o.warm ::ₘ M) →
      ∃ w', x = some w' ∧ w'.books.Balanced (o'.warm ::ₘ M)) :
    Stage.Keeps Host.stage (serviceShares warming) o g s o' := by
  refine keeps_warmer hg hx hbooks (fun _ => hrole ▸ ho) hheld (by simp [hrole]) fun M hI c hc => ?_
  have hearly := hI.early ho
  rcases Multiset.mem_cons.1 hc with rfl | hc
  · rw [hrole]
    exact (hI.roles o (Multiset.mem_cons_self _ _)).of_early (hearly o (Multiset.mem_cons_self _ _))
      rfl rfl rfl
  · exact (hI.roles c (Multiset.mem_cons_of_mem hc)).of_early (hearly c (Multiset.mem_cons_of_mem hc))
      rfl rfl rfl

-- A change of the lifecycle and the readiness alone keeps the stakes when the lifecycle counts the
-- loops of the new stakes and the roles are owed what the host gives.
theorem keeps_life {g : Host → Host} {life : Option Lifecycle} {ready : Bool}
    (hg : g s = { s with service := life, ready := ready }) (hwarm : o'.warm = o.warm)
    (hdisp : o'.warm.claim.dispatching? ≠ none → o'.role.dispatches = true)
    (hleads : o'.role.leads = o.role.leads)
    (hloops : ∀ M, s.Serving warming (o ::ₘ M) → ∃ life', life = some life' ∧
      life'.running = (o' ::ₘ M).countP (·.role.isLoop) + ((o' ::ₘ M).map (·.role.owed)).sum ∧
      (life'.started = false → life'.running = 0))
    (hroles : ∀ M, s.Serving warming (o ::ₘ M) →
      ∀ c ∈ o' ::ₘ M, c.role.Holds { s with service := life, ready := ready }) :
    Stage.Keeps Host.stage (serviceShares warming) o g s o' := by
  refine keeps_of (by rw [hg]) fun M hI => ?_
  rw [hg]
  exact Host.Serving.step hI hI.idle rfl (fun w hw => ⟨w, hw, hwarm ▸ id⟩) hdisp (by rw [hwarm]) hleads
    (hloops M hI)
    (hroles M hI)

-- Asking for a job keeps the stakes when the fiber's new stake and the job's account for the host.
theorem keeps_spawn {j : Job}
    (hj : ∀ M, s.Serving warming (o ::ₘ M) → s.Serving warming (o' ::ₘ j.stake ::ₘ M)) :
    Stage.Keeps Host.stage (serviceShares warming) o
      (fun h => { h with requested := h.requested ++ [j] }) s o' := by
  intro M hI
  have hnil := hI.idle
  simp only [Host.stage_takeJobs, hnil, List.nil_append, List.map_cons, List.map_nil,
    List.mem_singleton, forall_eq]
  refine ⟨trivial, ?_⟩
  have hsame : { { s with requested := [j] } with requested := ([] : List Job) } = s := by
    cases s
    simp_all
  rw [hsame, Multiset.coe_singleton, Multiset.add_comm, Multiset.singleton_add]
  exact hj M hI

-- A first start counts the loops it is about to ask for; none runs before it.
theorem keeps_begin {life : Lifecycle} (hlife : s.service = some life) (hsess : life.started = false)
    (ho : o.role = .session false 0) (n : Nat) :
    Stage.Keeps Host.stage (serviceShares warming) o
      (fun h => { h with service := some { life with started := true, running := n } }) s
      { o with role := .session true n } := by
  refine keeps_life rfl rfl (fun _ => rfl) (by simp [ho]) (fun M hI => ?_) fun M hI c hc => ?_
  · obtain ⟨l, hl, hrun, hstart⟩ := hI.loops
    rw [hlife, Option.some.injEq] at hl
    subst hl
    have h0 := hstart hsess
    simp [ho] at hrun ⊢
    omega
  · rcases Multiset.mem_cons.1 hc with rfl | hc
    · rfl
    · exact Role.Holds.of_follows (hI.lone (by simp [ho]) c hc)

theorem keeps_same {g : Host → Host} (hg : g s = s) :
    Stage.Keeps Host.stage (serviceShares warming) o g s o :=
  keeps_still (by rw [hg]; exact .of_eq rfl rfl rfl rfl rfl)

end Keeps

/-- What a start answers: a refusal when the service was started before. -/
def startAnswer (started : Bool) : Except CacheError Unit :=
  if started then .error (.internal "cache service already started") else .ok ()

/-! ## Programs that serve -/

namespace Act

variable {α β : Type} {warming : Bool} {o : Stake}

/-- From every state the stakes account for, `f` holding `o` keeps them accounting for the host and
ends holding a stake `Q` allows. -/
def Serves (warming : Bool) (Q : α → Stake → Prop) (o : Stake) (f : Act α) : Prop :=
  Stage.Holds Host.stage (serviceShares warming) Q o f

variable {Q : α → Stake → Prop} {f : Act α}

theorem Serves.bind {Q' : β → Stake → Prop} {g : α → Act β} (hf : Serves warming Q o f)
    (hg : ∀ a o', Q a o' → Serves warming Q' o' (g a)) : Serves warming Q' o (f >>= g) :=
  Stage.Holds.bind hf hg

theorem serves_pure {a : α} (hq : Q a o) : Serves warming Q o (pure a) := Stage.holds_pure hq

theorem Serves.mono {Q' : α → Stake → Prop} (hf : Serves warming Q o f)
    (hQ : ∀ a o', Q a o' → Q' a o') : Serves warming Q' o f :=
  Stage.Holds.mono hf hQ

theorem Still.serves (hf : Still f) : Serves warming (fun _ o' => o' = o) o f :=
  Stage.Holds.of_within (fun _ _ hs => keeps_still hs) (fun _ => rfl) hf

theorem Still.bind_serves {g : α → Act β} {Q : β → Stake → Prop} (hf : Still f)
    (hg : ∀ a, Serves warming Q o (g a)) : Serves warming Q o (f >>= g) :=
  hf.serves.bind fun a _ ho => ho ▸ hg a

theorem Busy.serves {b : Bool} {k : Nat} (ho : o.role = .session b k) (hf : Busy f) :
    Serves warming (fun _ o' => o' = o) o f :=
  Stage.Holds.of_within (fun _ _ hs => keeps_busy ho hs) (fun _ => rfl) hf

theorem serves_giveWay : Serves warming (fun _ o' => o' = o) o Fiber.giveWay :=
  fun _ _ _ => .pass fun _ M hI => .done ⟨rfl, M, hI⟩

theorem serves_modifyGet {F : Host → α × Host}
    (hF : ∀ s M, s.Serving warming (o ::ₘ M) →
      ∃ o', Stage.Keeps Host.stage (serviceShares warming) o (fun _ => (F s).2) s o' ∧ Q (F s).1 o') :
    Serves warming Q o (Fiber.modifyGet F) := by
  intro s M hI
  obtain ⟨o', hk, hq⟩ := hF s M hI
  exact Stage.Runs.modifyGet hk ⟨hq, _, (hk M hI).2⟩

theorem serves_modify {g : Host → Host} {Q : Unit → Stake → Prop}
    (hg : ∀ s M, s.Serving warming (o ::ₘ M) →
      ∃ o', Stage.Keeps Host.stage (serviceShares warming) o g s o' ∧ Q () o') :
    Serves warming Q o (Fiber.modify g) := by
  intro s M hI
  obtain ⟨o', hk, hq⟩ := hg s M hI
  exact Stage.Runs.modify hk ⟨hq, _, (hk M hI).2⟩

-- A wait that moves the fiber's stake when it wakes.
theorem serves_wait {d : Option Nat} {r : Host → Bool} {o' : Stake}
    (hwake : ∀ s M, s.Serving warming (o ::ₘ M) → (r s || d.any (· ≤ s.clock)) = true →
      s.Serving warming (o' ::ₘ M)) :
    Serves warming (fun _ o'' => o'' = o') o (.wait d r (.done ())) :=
  fun _ _ _ => .wait (fun _ => o') hwake fun s' M hI hready => .done ⟨rfl, M, hwake s' M hI hready⟩

/-! ### Warming from a loop or from the session -/

section Dispatch

variable {p : String} {j : Nat}

-- A change of the scheduler alone by a loop or by the session, moving its share.
theorem serves_changeWarmer {F : Warmer → Warmer} {o' : Stake} (hd : o.role.dispatches = true)
    (hrole : o'.role = o.role) (hheld : o'.warm.drain.held = o.warm.drain.held)
    (hF : ∀ w M, w.books.Balanced (o.warm ::ₘ M) → (F w).books.Balanced (o'.warm ::ₘ M)) :
    Serves warming (fun _ o'' => o'' = o') o (changeWarmer F) :=
  serves_modify fun s _ _ => ⟨o', keeps_dispatch hd hrole hheld rfl (by simp)
    fun w M hw hb => ⟨F w, by simp [hw], hF w M hb⟩, rfl⟩

theorem serves_claim (hd : o.role.dispatches = true) (ho : o.warm.claim = .free) (p : String) :
    Serves warming (fun b o' => o' = if b then o.withClaim (.claiming p) else o) o (claim p) := by
  refine serves_modifyGet fun s _ _ => ?_
  cases hw : s.warmer with
  | none => exact ⟨o, keeps_same rfl, rfl⟩
  | some w =>
    by_cases hp : w.claimed p = true
    · exact ⟨o, keeps_same (by simp [hp]), by simp [hp]⟩
    · have hfree : p ∉ w.inFlight := by simpa [Warmer.claimed] using hp
      refine ⟨o.withClaim (.claiming p), keeps_dispatch (x := some { w with inFlight := p :: w.inFlight })
        hd rfl rfl (by simp [hp]) (by simp [hw]) fun w' M hw' hb => ?_, by simp [hp]⟩
      rw [hw] at hw'
      cases hw'
      exact ⟨_, rfl, hb.claim ho hfree⟩

theorem serves_takePermit (hd : o.role.dispatches = true) (ho : o.warm.claim = .claiming p) :
    Serves warming (fun r o' => o' = o.withClaim (r.elim .free (.task p))) o (takePermit p) := by
  refine serves_modifyGet fun s _ _ => ?_
  cases hw : s.warmer with
  | none =>
    exact ⟨o.withClaim .free, keeps_dispatch (x := s.warmer) hd rfl rfl rfl rfl
      fun w _ hw' _ => by simp [hw] at hw', rfl⟩
  | some w =>
    by_cases hpermit : w.permits = 0
    · -- no permit free: the claim goes back and the rule counts as skipped
      refine ⟨o.withClaim .free, keeps_dispatch
        (x := some ((w.count fun c => { c with skippedBusy := c.skippedBusy + 1 }).release p))
        hd rfl rfl (by simp [hpermit]) (by simp [hw]) fun w' M hw' hb => ?_, by simp [hpermit]⟩
      rw [hw] at hw'
      cases hw'
      exact ⟨_, rfl, hb.release ho⟩
    · refine ⟨o.withClaim (.task p w.nextJob), keeps_dispatch
        (x := some { w with
          permits := w.permits - 1, nextJob := w.nextJob + 1,
          running := w.running ++ [w.nextJob], undrained := w.undrained ++ [w.nextJob],
          counters := { w.counters with active := w.counters.active + 1 } })
        hd rfl rfl (by simp [hpermit]) (by simp [hw]) fun w' M hw' hb => ?_, by simp [hpermit]⟩
      rw [hw] at hw'
      cases hw'
      exact ⟨_, rfl, hb.start ho hpermit⟩

theorem serves_release (hd : o.role.dispatches = true) (ho : o.warm.claim = .claiming p) :
    Serves warming (fun _ o' => o' = o.withClaim .free) o (changeWarmer (·.release p)) :=
  serves_changeWarmer hd rfl rfl fun _ _ hb => hb.release ho

-- Starting a job hands the dispatch's task to the job.
theorem serves_spawnWarm {id : Nat} {r : Rule} {now : Instant} {trigger : Option String}
    (ho : o.warm.claim = .task r.pattern id) :
    Serves warming (fun _ o' => o' = o.withClaim .free) o (spawn (.warm id r now trigger)) := by
  refine serves_modify fun s _ _ => ⟨o.withClaim .free, keeps_spawn fun M hI => ?_, rfl⟩
  refine hI.hand (fun w _ hb => ?_) (by simp) (by simp [Job.stake]) rfl rfl rfl rfl ?_
    (hI.roles o (Multiset.mem_cons_self _ _)) trivial
  · simpa [Job.stake, ho, Stake.withClaim] using hb.handOver
  · have := hI.loops
    simp only [Multiset.countP_cons, Multiset.map_cons, Multiset.sum_cons, Stake.withClaim_role,
      Job.stake, Role.isLoop.eq_4, Role.owed.eq_4, Bool.false_eq_true, ↓reduceIte, add_zero,
      zero_add] at this ⊢
    exact this

-- A dispatch gives back the stake it started with: between its claim and its end it holds the
-- pattern, and a job it starts takes the claim over.
theorem serves_dispatch (hd : o.role.dispatches = true) (ho : o.warm.claim = .free) (r : Rule)
    (now : Instant) (trigger : Option String) :
    Serves warming (fun _ o' => o' = o) o (dispatch r now trigger) := by
  have hback : o.withClaim .free = o := Stake.withClaim_self ho
  refine (serves_claim hd ho r.pattern).bind fun claimed o' ho' => ?_
  subst ho'
  cases claimed with
  | false => exact serves_pure (by simp)
  | true =>
    refine (still_eligibility r now).bind_serves fun gate => ?_
    cases gate with
    | eligible =>
      refine (serves_takePermit (by simpa using hd) (by simp)).bind fun started o' ho' => ?_
      subst ho'
      cases started with
      | none => exact serves_pure (by simpa using hback)
      | some id =>
        refine (serves_spawnWarm rfl).bind fun _ o' ho' => serves_pure ?_
        simpa [ho'] using hback
    | _ =>
      refine (serves_release (by simpa using hd) (by simp)).bind fun _ o' ho' => serves_pure ?_
      simpa [ho'] using hback

-- A loop whose every round gives back the stake it started with.
theorem Serves.forIn {γ δ : Type} {xs : List γ} {d : δ} {f : γ → δ → Act (ForInStep δ)}
    (hf : ∀ x d, Serves warming (fun _ o' => o' = o) o (f x d)) :
    Serves warming (fun _ o' => o' = o) o (forIn xs d f) := by
  -- the loop's invariant and its way out both say that the stake is back
  have hloop : Serves warming (fun _ o' => o' = o ∨ o' = o) o (ForIn.forIn xs d f) := by
    refine Stage.Holds.forIn (fun _ _ o' => o' = o) (fun _ o' => o' = o)
      (fun _ x _ d o' _ ho' => ?_) rfl
    subst ho'
    exact (hf x d).mono fun step _ h => by cases step <;> exact h
  exact hloop.mono fun _ _ h => h.elim id id

theorem serves_dispatchAll (hd : o.role.dispatches = true) (ho : o.warm.claim = .free)
    (rules : List Rule) (now : Instant) (trigger : Option String) :
    Serves warming (fun _ o' => o' = o) o (dispatchAll rules now trigger) := by
  unfold dispatchAll
  refine (Serves.forIn fun r started => ?_).bind fun _ o' ho' => serves_pure ho'
  refine (serves_dispatch hd ho r now trigger).bind fun began o' ho' => ?_
  subst ho'
  split <;> exact serves_pure rfl

theorem serves_tick (hd : o.role.dispatches = true) (ho : o.warm.claim = .free) (now : Instant) :
    Serves warming (fun _ o' => o' = o) o (tick now) :=
  Still.bind_serves (stays_look _) fun rules => serves_dispatchAll hd ho rules now none

theorem serves_handleTrigger (hd : o.role.dispatches = true) (ho : o.warm.claim = .free)
    (key : String) (now : Instant) :
    Serves warming (fun _ o' => o' = o) o (handleTrigger key now) := by
  unfold handleTrigger
  split
  · exact serves_pure rfl
  · refine (still_changeWarmer fun w => by simp).bind_serves fun _ => ?_
    exact Still.bind_serves (stays_look _) fun rules => serves_dispatchAll hd ho rules now (some key)

-- The session's drain takes the jobs dispatched since the last one, waits until they have all
-- ended, and holds the right to drain again.
theorem serves_drain (hd : o.role.dispatches = true) (ho : o.warm.drain = .holder) :
    Serves warming (fun _ o' => o' = o) o drain := by
  refine Serves.bind (serves_modifyGet fun s _ _ => ?_)
    fun jobs o' (ho' : o' = { o with warm := { o.warm with drain := .awaiting jobs } }) => ?_
  · cases hw : s.warmer with
    | none =>
      exact ⟨{ o with warm := { o.warm with drain := .awaiting [] } }, keeps_dispatch (x := s.warmer)
        hd rfl (by simp [ho]) rfl rfl fun w _ hw' _ => by simp [hw] at hw', rfl⟩
    | some w =>
      refine ⟨{ o with warm := { o.warm with drain := .awaiting w.undrained } },
        keeps_dispatch (x := some { w with undrained := [] }) hd rfl (by simp [ho]) (by simp) (by simp [hw])
          fun w' M hw' hb => ?_, rfl⟩
      rw [hw] at hw'
      cases hw'
      exact ⟨_, rfl, hb.take ho⟩
  subst ho'
  -- waking up: every job taken has ended, and the right to drain comes back
  refine serves_wait fun s M hI hready => ?_
  have hholds := hI.roles _ (Multiset.mem_cons_self _ _)
  refine hI.reshare (fun w hw hb => ?_) (fun _ => hd) (by simp [ho]) ⟨rfl, rfl, rfl⟩ hholds
  have hback : ({ { o.warm with drain := .awaiting jobs } with drain := .holder } : Share) = o.warm := by
    ext <;> simp [ho]
  have hJ : ∀ j ∈ jobs, j ∉ w.running := by simpa [hw] using hready
  simpa [hback] using hb.wake rfl hJ

end Dispatch

/-! ### The jobs -/

-- A loop of rounds whose every round gives back the stake it started with.
theorem serves_loop {δ : Type} {body : δ → Act (δ × Bool)}
    (hbody : ∀ d, Serves warming (fun _ o' => o' = o) o (body d)) (n : Nat) (d : δ) :
    Serves warming (fun _ o' => o' = o) o (Fiber.loop body n d) := by
  induction n generalizing d with
  | zero => exact serves_pure rfl
  | succ n ih =>
    intro s M hI
    refine .read (Stage.Holds.bind (hbody d) (fun r o' ho' => ?_) s M hI)
    obtain ⟨d', more⟩ := r
    subst ho'
    cases more with
    | true => exact ih d'
    | false => exact serves_pure rfl

theorem serves_every (period : Nat) {body : Act Unit}
    (hbody : Serves warming (fun _ o' => o' = o) o body) :
    Serves warming (fun _ o' => o' = o) o (every period body) := by
  unfold every
  refine still_now.bind_serves fun start => ?_
  refine (serves_loop (fun deadline => ?_) _ _).bind fun _ o' ho' => serves_pure ho'
  refine Still.bind_serves (Stays.wait (stays_pure _)) fun _ => ?_
  refine Still.bind_serves (stays_look _) fun stopped => ?_
  split
  · exact serves_pure rfl
  · exact still_now.bind_serves fun t => hbody.bind fun _ o' ho' => serves_pure ho'

/-- The stake of a loop that has not ended. -/
abbrev loopStake : Stake := { role := .loop }

theorem serves_round (l : Loop) :
    Serves warming (fun _ o' => o' = loopStake) loopStake l.round := by
  cases l with
  | sweep =>
    exact Still.serves (still_changeCache (f := fun now c => (c.onMemory fun m k => m.sweep k now).2)
      fun _ _ => le_refl _)
  | metrics => exact still_ping.bind_serves fun _ => serves_pure rfl
  | tick =>
    exact Still.bind_serves (stays_look _) fun wall =>
      (serves_tick rfl rfl wall).bind fun _ o' ho' => serves_pure ho'
  | analysis =>
    exact Still.bind_serves (stays_look _) fun wall =>
      (still_analyze wall).bind_serves fun _ => serves_pure rfl
  | trigger => exact serves_pure rfl

theorem serves_handleTriggers :
    Serves warming (fun _ o' => o' = loopStake) loopStake handleTriggers := by
  unfold handleTriggers
  refine (serves_loop (fun _ => ?_) _ _).bind fun _ o' ho' => ?_
  · refine Still.bind_serves (stays_waitUntil _) fun _ => ?_
    refine Still.bind_serves (stays_look _) fun stopped => ?_
    split
    · exact serves_pure rfl
    · refine (still_onCache fun _ c => ?_).bind_serves fun key => ?_
      · split <;> exact le_refl _
      · extract_lets jp
        split
        · exact Still.bind_serves (stays_look _) fun wall =>
            (serves_handleTrigger rfl rfl _ wall).bind fun _ o' ho' => ho' ▸ serves_pure rfl
        · exact serves_pure rfl
  · subst ho'
    exact Still.serves (still_changeCache fun _ _ => by rfl)

end Act

section Keeps

variable {warming : Bool} {s : Host}

-- A loop that ends leaves the running loops; no shutdown past its first step can see it, as the
-- loop was running.
theorem keeps_loopEnd :
    Stage.Keeps Host.stage (serviceShares warming) Act.loopStake
      (fun h => { h with service := h.service.map fun l => { l with running := l.running - 1 } }) s
      { role := .job } := by
  refine keeps_life rfl rfl (by simp) rfl (fun M hI => ?_) fun M hI c hc => ?_
  · obtain ⟨life, hlife, hrun, hstart⟩ := hI.loops
    refine ⟨{ life with running := life.running - 1 }, by simp [hlife], ?_, fun hs => ?_⟩
    · simp only [Multiset.countP_cons, Multiset.map_cons, Multiset.sum_cons] at hrun ⊢
      simp at hrun ⊢
      omega
    · have hpos : 0 < life.running := by
        simp only [Multiset.countP_cons, Multiset.map_cons, Multiset.sum_cons] at hrun
        simp at hrun
        omega
      simp [hstart hs] at hpos
  · rcases Multiset.mem_cons.1 hc with rfl | hc
    · trivial
    · have hc' := Multiset.mem_cons_of_mem (b := Act.loopStake) hc
      exact (hI.roles c hc').of_early (hI.early rfl c hc') (by cases s.service <;> rfl)
        (by cases s.service <;> rfl) rfl

end Keeps

namespace Act

variable {warming : Bool}

/-! ### The lifecycle -/

-- The session asking for a loop its start counted hands the loop its place among the running loops.
theorem serves_spawnLoop {k : Nat} (ho : o.role = .session true (k + 1)) (l : Loop) :
    Serves warming (fun _ o' => o' = { o with role := .session true k }) o (spawn (.loop l)) := by
  refine serves_modify fun s _ _ => ⟨_, keeps_spawn fun M hI => ?_, rfl⟩
  -- the session stays started
  have hstarted := hI.holds ho
  refine hI.hand (fun w _ hb => ?_) (fun _ => rfl) (by simp [Job.stake]) rfl rfl (by simp [ho]) rfl ?_
    hstarted trivial
  · have hq := hb.add_quiet (T := {({} : Share)}) (by simp)
    rw [Multiset.add_comm, Multiset.singleton_add, Multiset.cons_swap] at hq
    exact hq
  · obtain ⟨life, hlife, hrun, hstart⟩ := hI.loops
    refine ⟨life, hlife, ?_, hstart⟩
    simp [ho, Job.stake] at hrun ⊢
    omega

-- Asking for each loop in turn, the session hands each one its place among the running loops.
theorem serves_spawnLoops (loops : List Loop) {o : Stake} (ho : o.role = .session true loops.length) :
    Serves warming (fun _ o' => o' = { o with role := .session true 0 }) o
      (forIn loops PUnit.unit fun l _ => do spawn (.loop l); pure (ForInStep.yield PUnit.unit)) := by
  induction loops generalizing o with
  | nil =>
    obtain ⟨w, r⟩ := o
    simp only [List.length_nil] at ho
    subst ho
    exact serves_pure rfl
  | cons l ls ih =>
    rw [List.forIn_cons]
    have hbody : Serves warming
        (fun step o' => step = .yield PUnit.unit ∧ o' = { o with role := .session true ls.length }) o
        (do spawn (.loop l); pure (ForInStep.yield PUnit.unit)) :=
      (serves_spawnLoop ho l).bind fun _ o' ho' => serves_pure ⟨rfl, ho'⟩
    refine hbody.bind fun step o' ho' => ?_
    obtain ⟨rfl, rfl⟩ := ho'
    exact (ih rfl).mono fun _ o'' h => by simp [h]

-- A start of a started service reads the lifecycle and refuses at once: it makes no change and
-- asks for no job.
theorem start_of_started {h : Host} {life : Lifecycle} (hs : h.service = some life)
    (hst : life.started = true) :
    ∃ k, start = .read k ∧ k h = .done (.error (.internal "cache service already started")) := by
  refine ⟨_, rfl, ?_⟩
  simp [look, hs, hst]
  rfl

theorem serves_start {b : Bool} (ho : o.role = .session b 0) :
    Serves warming (fun a o' => a = startAnswer b ∧ o' = { o with role := .session true 0 }) o start := by
  intro s M hI
  have hsess : s.service.map (·.started) = some b := hI.holds ho
  obtain ⟨life, hlife, hrun, hstart⟩ := hI.loops
  rw [hlife, Option.map_some, Option.some.injEq] at hsess
  cases b with
  | true =>
    obtain ⟨k, hk, hks⟩ := start_of_started hlife hsess
    have hsame : { o with role := .session true 0 } = o := by
      obtain ⟨w, r⟩ := o
      simp only at ho
      rw [ho]
    rw [hk]
    refine .read ?_
    rw [hks]
    exact .done ⟨⟨rfl, hsame.symm⟩, M, hI⟩
  | false =>
    unfold start
    refine .read ?_
    simp only [look, Fiber.done_bind, hlife, hsess, Bool.false_eq_true, ↓reduceIte]
    refine .read ?_
    simp only [Fiber.done_bind]
    have hk : ∀ n, Stage.Keeps Host.stage (serviceShares warming) o _ s _ := keeps_begin hlife hsess ho
    refine .write _ (hk _) ?_
    refine (?_ : Serves warming _ _ _) _ _ ((hk _) M hI).2
    simp only [Fiber.done_bind]
    refine (serves_spawnLoops _ rfl).bind fun _ o' ho' => ?_
    subst ho'
    -- ready: the session's stake and the lifecycle stay as they are
    refine (serves_modify (Q := fun _ o'' => o'' = _) fun s M hI => ⟨_, keeps_life rfl rfl (fun _ => rfl) rfl
      (fun M hI => hI.loops_same rfl rfl rfl) fun M hI c hc => ?_, rfl⟩).bind
      fun _ o' ho' => serves_pure ⟨rfl, by simp [ho']⟩
    rcases Multiset.mem_cons.1 hc with rfl | hc
    · exact hI.roles _ (Multiset.mem_cons_self _ _)
    · exact Role.Holds.of_follows (hI.lone rfl c hc)

/-! ### The shutdown -/

-- What the scheduler's presence tells: whether warming is on.
theorem serves_lookScheduler :
    Serves warming (fun c o' => c = warming ∧ o' = o) o (look (·.warmer.isSome)) :=
  fun _ M hI => .read (.done ⟨⟨hI.scheduler, rfl⟩, M, hI⟩)

-- The loops told to stop, the shutdown waits until none runs.
theorem serves_unloop (ho : o.role = .closing .cancelled) :
    Serves warming (fun _ o' => o' = { o with role := .closing .unlooped }) o
      (Fiber.waitUntil fun h => (h.service.map (·.running == 0)).getD true) := by
  refine serves_wait fun s M hI hready => ?_
  obtain ⟨life, hlife, -⟩ := hI.loops
  have hrun : life.running = 0 := by simpa [hlife] using hready
  refine hI.reshare (fun _ _ hb => hb)
    (fun hd => absurd (hI.dispatchers o (Multiset.mem_cons_self _ _) hd) (by simp [ho])) rfl
    (by simp [ho]) (ShutdownStep.Holds.unloop (hI.holds ho) (by simp [hlife, hrun]))

-- The shutdown's drain: with the loops ended, it takes the warming jobs to wait for and waits until
-- none runs and nothing is claimed.
theorem serves_drainClosing (hwarming : warming = true) (ho : o.role = .closing .unlooped)
    (hclaim : o.warm.claim = .free) (hdrain : o.warm.drain = .holder) :
    Serves warming (fun _ o' => o' = { o with role := .closing .drained }) o drain := by
  refine Serves.bind (serves_modifyGet fun s M hI => ?_) fun jobs o'
    (ho' : o' = { warm := { o.warm with drain := .awaiting jobs }, role := .closing .draining }) => ?_
  · cases hw : s.warmer with
    | none =>
      have := hI.scheduler
      rw [hw, hwarming] at this
      cases this
    | some w =>
      refine ⟨{ warm := { o.warm with drain := .awaiting w.undrained }, role := .closing .draining },
        keeps_warmer (x := some { w with undrained := [] }) (by simp) (by simp [hw])
          (fun w' M hw' hb => ?_) (fun hd => by simp [hclaim] at hd) (by simp [hdrain]) (by simp [ho])
          fun M' hI' c hc => ?_, rfl⟩
      · rw [hw] at hw'
        cases hw'
        exact ⟨_, rfl, hb.take hdrain⟩
      · rcases Multiset.mem_cons.1 hc with rfl | hc
        · exact ShutdownStep.Holds.take (hI'.holds ho) w
        · exact Role.Holds.of_follows (hI'.lone (by simp [ho]) c hc)
  subst ho'
  -- waking up: the jobs taken have ended, no loop runs and the session dispatches no more, so
  -- nothing runs and nothing is claimed
  refine serves_wait fun s M hI hready => ?_
  have hJ : ∀ w, s.warmer = some w → ∀ j ∈ jobs, j ∉ w.running := fun w hw => by simpa [hw] using hready
  have hh : ShutdownStep.Holds s .draining := hI.holds rfl
  have hback : ({ { o.warm with drain := .awaiting jobs } with drain := .holder } : Share) = o.warm := by
    ext <;> simp [hdrain]
  refine hI.reshare (fun w hw hb => by simpa [hback] using hb.wake rfl (hJ w hw))
    (fun hd => by simp [hclaim] at hd) (by simp [hdrain]) ⟨rfl, rfl, rfl⟩ (ShutdownStep.Holds.drain hh fun w hw => ?_)
  have hquiet := hI.quiet rfl (by decide)
  refine And.symm ((hI.books w hw).drained_of (fun x hx j hj => ?_) (fun x hx => ?_)
    (hh.taken (by decide) w hw))
  · -- the shutdown waits for the jobs it took; no other fiber leads, so none holds a drain
    obtain ⟨c, hc, rfl⟩ := Multiset.mem_map.1 hx
    rcases Multiset.mem_cons.1 hc with rfl | hc
    · exact hJ w hw j hj
    · have hheld : c.warm.drain.held = false := by
        by_contra hne
        have := hI.drainers c (Multiset.mem_cons_of_mem hc) (by simpa using hne)
        simp [hI.lone rfl c hc] at this
      cases hd : c.warm.drain <;> simp_all
  · obtain ⟨c, hc, rfl⟩ := Multiset.mem_map.1 hx
    exact hquiet c hc

-- The shutdown's last wait: no write behind is pending.
theorem serves_flushClosing {stop : ShutdownStep} (ho : o.role = .closing stop)
    (hstop : stop = .drained ∨ stop = .unlooped ∧ warming = false) :
    Serves warming (fun _ o' => o' = { o with role := .closing .flushed }) o flush := by
  refine serves_wait fun s M hI hready => ?_
  have hp : s.cache.writeBehind.pending = 0 := by simpa using hready
  refine hI.reshare (fun _ _ hb => hb)
    (fun hd => absurd (hI.dispatchers o (Multiset.mem_cons_self _ _) hd) (by simp [ho])) rfl
    (by simp [ho]) (ShutdownStep.Holds.flush (hI.holds ho) ?_ hp)
  -- without warming there is no scheduler to wait for
  rcases hstop with h | ⟨h, hw⟩
  · exact .inl h
  · refine .inr ⟨h, ?_⟩
    have := hI.scheduler
    rw [hw] at this
    simpa using this

theorem serves_shutdown {b : Bool} (ho : o.role = .session b 0) (hclaim : o.warm.claim = .free)
    (hdrain : o.warm.drain = .holder) :
    Serves warming (fun _ o' => o'.role = .closing .flushed) o shutdown := by
  unfold shutdown
  refine Serves.bind (serves_modify fun s M hI => ⟨{ o with role := .closing .cancelled },
    keeps_life rfl (by rfl) (fun hd => by simp [hclaim] at hd) (by simp [ho]) (fun M hI => ?_)
      fun M hI c hc => ?_, rfl⟩) fun _ o₁ (ho₁ : o₁ = { o with role := .closing .cancelled }) => ?_
  · obtain ⟨life, hlife, hrun, hstart⟩ := hI.loops
    refine ⟨{ life with cancelled := true }, by simp [hlife], ?_, hstart⟩
    simp [ho] at hrun ⊢
    exact hrun
  · rcases Multiset.mem_cons.1 hc with rfl | hc
    · obtain ⟨life, hlife, -⟩ := hI.loops
      exact ShutdownStep.Holds.cancel (by simp [hlife]) rfl
    · exact Role.Holds.of_follows (hI.lone (by simp [ho]) c hc)
  subst ho₁
  refine (serves_unloop rfl).bind fun _ o₂ ho₂ => ?_
  subst ho₂
  refine serves_lookScheduler.bind fun c o₃ ho₃ => ?_
  obtain ⟨rfl, rfl⟩ := ho₃
  extract_lets jp
  split
  · rename_i hwarming
    refine (serves_drainClosing hwarming (by rfl) (by simpa using hclaim) (by simpa using hdrain)).bind
      fun _ o₄ ho₄ => ?_
    subst ho₄
    exact (serves_flushClosing (by rfl) (.inl rfl)).mono fun _ o₅ ho₅ => by rw [ho₅]
  · rename_i hwarming
    exact (serves_flushClosing (by rfl) (.inr ⟨rfl, by simpa using hwarming⟩)).mono
      fun _ o₅ ho₅ => by rw [ho₅]

-- A loop ends as a job holding nothing.
theorem serves_runLoop (l : Loop) :
    Serves warming (fun _ o' => (serviceShares warming).Ended o') loopStake (runLoop l) := by
  unfold runLoop
  have hend : Serves warming (fun _ o' => (serviceShares warming).Ended o') loopStake
      (Fiber.modify fun h => { h with service := h.service.map fun l => { l with running := l.running - 1 } }) :=
    serves_modify fun _ _ _ => ⟨_, keeps_loopEnd, rfl, rfl⟩
  split
  · exact serves_handleTriggers.bind fun _ o' ho' => ho' ▸ hend
  · refine Still.bind_serves (stays_look _) fun period => ?_
    exact (serves_every period (serves_round _)).bind fun _ o' ho' => ho' ▸ hend

-- A job that ends its warming gives back its claim and its permit: no shutdown waiting for the
-- warming jobs can have seen it end, as it was running.
theorem serves_finish {p : String} {j : Nat} (ho : o.warm.claim = .task p j) (hrole : o.role = .job) :
    Serves warming (fun _ o' => o' = o.withClaim .free) o (changeWarmer (·.finish j p)) := by
  refine serves_modify fun s _ _ => ⟨o.withClaim .free, keeps_warmer rfl (by simp)
    (fun w M hw hb => ⟨w.finish j p, by simp [hw], hb.finish ho⟩) (by simp) rfl (by simp)
    fun M hI c hc => ?_, rfl⟩
  rcases Multiset.mem_cons.1 hc with rfl | hc
  · simp only [Stake.withClaim_role, hrole]
    trivial
  have hc' := Multiset.mem_cons_of_mem (b := o) hc
  refine (hI.roles c hc').of_warmer fun stop hstop => ?_
  have hh : stop.Holds s := by simpa [hstop, Role.Holds] using hI.roles c hc'
  refine hh.of_warmer (fun h2 w' hw' => ?_) fun h3 w' hw' => ?_
  · obtain ⟨w, hw, rfl⟩ := Option.map_eq_some_iff.1 hw'
    simpa [Warmer.finish, Warmer.release] using hh.taken h2 w hw
  · obtain ⟨w, hw, rfl⟩ := Option.map_eq_some_iff.1 hw'
    have hj : j ∈ w.running :=
      (hI.books w hw).mem_running (Multiset.mem_map_of_mem _ (Multiset.mem_cons_self o M)) ho
    rw [(hh.idle h3 w hw).1] at hj
    cases hj

-- A warming job ends holding no claim, however its rule ends.
theorem serves_warmJob (id : Nat) (r : Rule) (now : Instant) (trigger : Option String) :
    Serves warming (fun _ o' => (serviceShares warming).Ended o') (Job.warm id r now trigger).stake
      (warmJob id r now trigger) := by
  refine still_now.bind_serves fun started => (still_runRule r now trigger).bind_serves fun outcome => ?_
  extract_lets finish
  have hfinish : ∀ u, Serves warming (fun _ o' => (serviceShares warming).Ended o') (Job.warm id r now trigger).stake
      (finish u) :=
    fun _ => (serves_finish (by rfl) (by rfl)).mono fun _ o' ho' => by simp [ho', serviceShares, Job.stake]
  have hrecord : ∀ items micros, Still (changeWarmer (·.count (·.recordRun items micros))) :=
    fun _ _ => still_changeWarmer fun w => by simp [WarmingCounters.recordRun_active]
  split
  · exact (still_markWarmed _ _).bind_serves fun _ => still_now.bind_serves fun _ =>
      (hrecord _ _).bind_serves fun u => hfinish u
  · exact still_now.bind_serves fun _ => (hrecord _ _).bind_serves fun u => hfinish u
  · exact hfinish ()

end Act

/-! ## The session -/

/-- A call the session makes between its start and its shutdown. -/
inductive ServiceCall where
  /-- A start of the service. -/
  | start
  /-- A request to the cache. -/
  | request (r : Request)
  /-- A call on the warming scheduler. -/
  | warm (c : WarmCall)
  /-- Any other step that leaves the lifecycle, the readiness, the warming books and the pending
  writes alone: a rule registered, the clock moved. -/
  | other (f : Act Unit)

namespace ServiceCall

def isStart : ServiceCall → Bool
  | start => true
  | request _ => false
  | warm _ => false
  | other _ => false

/-- The call's program; a start answers what it answered. -/
def act : ServiceCall → Act (Option (Except CacheError Unit))
  | start => do return some (← Act.start)
  | request r => do let _ ← r.act; return none
  | warm c => do c.act; return none
  | other f => do f; return none

/-- The session makes its calls one after the other, giving way before each so that the loops and
the jobs run in between in any order, then shuts the service down; it answers what its starts
answered. -/
def session : List ServiceCall → Act (List (Except CacheError Unit))
  | [] => do Act.shutdown; return []
  | c :: cs => do
    Fiber.giveWay
    let a ← c.act
    let rest ← session cs
    return a.toList ++ rest

end ServiceCall

/-- What `n` starts answer in turn: only a first start of a service not started succeeds. -/
def startAnswers (started : Bool) : Nat → List (Except CacheError Unit)
  | 0 => []
  | n + 1 => startAnswer started :: startAnswers true n

theorem Stake.with_role_self {o : Stake} {r : Role} (ho : o.role = r) : { o with role := r } = o := by
  obtain ⟨w, r₀⟩ := o
  simp only at ho
  rw [ho]

namespace ServiceCall

variable {warming : Bool} {o : Stake} {b : Bool}

-- The session's calls on the scheduler give back its stake.
theorem serves_warmCall (c : WarmCall) (ho : o.role = .session b 0) (hclaim : o.warm.claim = .free)
    (hdrain : o.warm.drain = .holder) : Act.Serves warming (fun _ o' => o' = o) o c.act := by
  cases c with
  | tick now => exact (Act.serves_tick (by simp [ho]) hclaim now).bind fun _ o' h => Act.serves_pure h
  | trigger key now =>
    exact (Act.serves_handleTrigger (by simp [ho]) hclaim key now).bind fun _ o' h => Act.serves_pure h
  | drain => exact Act.serves_drain (by simp [ho]) hdrain

-- A call answers what a start answers, and a start marks the session started.
theorem serves_act (c : ServiceCall) (hc : ∀ f, c = .other f → Act.Still f)
    (ho : o.role = .session b 0) (hclaim : o.warm.claim = .free) (hdrain : o.warm.drain = .holder) :
    Act.Serves warming (fun a o' => a = (if c.isStart then some (startAnswer b) else none) ∧
      o' = { o with role := .session (b || c.isStart) 0 }) o c.act := by
  cases c with
  | start =>
    exact (Act.serves_start ho).bind fun a o' h => Act.serves_pure ⟨by simp [h.1, isStart], by simp [h.2, isStart]⟩
  | request r =>
    exact (Act.Busy.serves ho (Request.busy_act r)).bind fun _ o' h =>
      Act.serves_pure ⟨rfl, by simp [h, isStart, Stake.with_role_self ho]⟩
  | warm c =>
    exact (serves_warmCall c ho hclaim hdrain).bind fun _ o' h =>
      Act.serves_pure ⟨rfl, by simp [h, isStart, Stake.with_role_self ho]⟩
  | other f =>
    exact (hc f rfl).bind_serves fun _ =>
      Act.serves_pure ⟨rfl, by simp [isStart, Stake.with_role_self ho]⟩

-- The session's answers are those of its starts in turn, and it ends having shut the service down.
theorem serves_session (calls : List ServiceCall) (hother : ∀ f, .other f ∈ calls → Act.Still f)
    (ho : o.role = .session b 0) (hclaim : o.warm.claim = .free) (hdrain : o.warm.drain = .holder) :
    Act.Serves warming (fun answers o' => answers = startAnswers b (calls.countP (·.isStart)) ∧
      o'.role = .closing .flushed) o (session calls) := by
  induction calls generalizing o b with
  | nil => exact (Act.serves_shutdown ho hclaim hdrain).bind fun _ o' h => Act.serves_pure ⟨rfl, h⟩
  | cons c cs ih =>
    have hact : Act.Serves warming _ o c.act :=
      c.serves_act (fun f hf => hother f (hf ▸ List.mem_cons_self)) ho hclaim hdrain
    refine Act.serves_giveWay.bind fun _ o₁ ho₁ => ?_
    subst ho₁
    refine hact.bind fun a o₂ ho₂ => ?_
    obtain ⟨rfl, rfl⟩ := ho₂
    refine (ih (fun f hf => hother f (List.mem_cons_of_mem _ hf)) (by rfl) (by simpa using hclaim)
      (by simpa using hdrain)).bind
      fun rest o₃ ho₃ => Act.serves_pure ⟨?_, ho₃.2⟩
    rw [ho₃.1, List.countP_cons]
    cases hs : c.isStart <;> simp [startAnswers]

end ServiceCall

/-! ## Every run of a session -/

section Run

variable {warming : Bool}

theorem poised_job (j : Job) :
    Stage.Poised Host.stage (serviceShares warming) j.stake (Host.stage.launch j) := by
  cases j with
  | writeBehind key frame ttlMs ticket =>
    exact ((Act.Still.serves (Act.still_writeBehindJob key frame ttlMs ticket)).mono
      fun _ o' h => by rw [h]; exact ⟨rfl, rfl⟩).poised
  | warm id r now trigger => exact (Act.serves_warmJob id r now trigger).poised
  | loop l => exact (Act.serves_runLoop l).poised

/-- The session's stake before its first call: no claim, the right to drain, not started. -/
def sessionStake : Stake := { warm := { drain := .holder }, role := .session false 0 }

-- A service not started, with an idle scheduler if any, is accounted for by the session alone.
theorem Host.Serving.begin {h : Host} {life : Lifecycle} (hservice : h.service = some life)
    (hstarted : life.started = false) (hrunning : life.running = 0) (hreq : h.requested = [])
    (hidle : ∀ w, h.warmer = some w → w.inFlight = [] ∧ w.running = [] ∧ w.counters.active = 0 ∧
      w.permits = max w.settings.maxConcurrentWarms 1) :
    h.Serving h.warmer.isSome {sessionStake} where
  idle := hreq
  scheduler := rfl
  books w hw := by simpa [sessionStake] using Warmer.balanced_idle (hidle w hw)
  dispatchers o ho := by simp [Multiset.mem_singleton.1 ho, sessionStake]
  drainers o ho _ := by simp [Multiset.mem_singleton.1 ho, sessionStake]
  alone := by
    rw [← Multiset.cons_zero, Multiset.countP_cons]
    simp [sessionStake]
  loops := ⟨life, hservice, by
    rw [← Multiset.cons_zero, Multiset.countP_cons]
    simp [hrunning, sessionStake], fun _ => hrunning⟩
  roles o ho := by
    rw [Multiset.mem_singleton.1 ho]
    show h.service.map (·.started) = some false
    simp [hservice, hstarted]

end Run

/-- A session that starts the service, makes its calls, starts it again as often as it likes and
shuts it down, beside the loops, warming jobs and write-behind jobs taking their turns in any order
and the clock moving as it likes: when the shutdown returns, only the first start succeeded, no
loop runs, the scheduler has no job running, nothing claimed and no task counted active, no write
is pending behind, the service is cancelled and its readiness check fails. A start of a started
service reads the lifecycle and refuses at once, making no change and asking for no job. -/
theorem shutdown_leaves_service_at_rest (h₀ : Host) (life₀ : Lifecycle) (calls : List ServiceCall)
    (answers : List (Except CacheError Unit)) (h : Host) (hservice : h₀.service = some life₀)
    (hstarted : life₀.started = false) (hrunning : life₀.running = 0) (hreq : h₀.requested = [])
    (hidle : ∀ w, h₀.warmer = some w → w.inFlight = [] ∧ w.running = [] ∧ w.counters.active = 0 ∧
      w.permits = max w.settings.maxConcurrentWarms 1)
    (hother : ∀ f, .other f ∈ calls → Act.Still f)
    (hend : Stage.Ends Host.stage h₀ (ServiceCall.session calls) answers h) :
    answers = startAnswers false (calls.countP (·.isStart)) ∧
      h.service.map (·.running) = some 0 ∧
      (∀ w, h.warmer = some w → w.running = [] ∧ w.inFlight = [] ∧ w.stats.activeTasks = 0) ∧
      h.cache.writeBehind.pending = 0 ∧ Act.cancelled h = true ∧
      (HealthCheck.ofFlag "readiness" h.ready "Service not ready").status = .unhealthy ∧
      ∀ (h' : Host) (life : Lifecycle), h'.service = some life → life.started = true →
        ∃ k, Act.start = .read k ∧ k h' = .done (.error (.internal "cache service already started")) := by
  have hserve : Act.Serves h₀.warmer.isSome _ sessionStake (ServiceCall.session calls) :=
    ServiceCall.serves_session calls hother rfl rfl rfl
  obtain ⟨o', S, ⟨hanswers, hrole⟩, hI⟩ := Stage.Runs.ends (L := serviceShares h₀.warmer.isSome)
    (fun j _ => poised_job j) (fun s _ _ _ hI => Host.Serving.of_still hI (.of_eq rfl rfl rfl rfl rfl))
    (fun s M hI => (hserve s M hI).mono fun _ _ _ hq => hq.1)
    (Host.Serving.begin hservice hstarted hrunning hreq hidle) hend
  -- the session's stake says how far its shutdown came
  have hh : ShutdownStep.Holds h .flushed := hI.holds hrole
  refine ⟨hanswers, hh.unlooped (by decide), fun w hw => ?_, hh.flushed (by decide), ?_, ?_,
    fun _ _ hs hst => Act.start_of_started hs hst⟩
  · obtain ⟨hrun, hflight⟩ := hh.idle (by decide) w hw
    have hactive := (hI.books w hw).active_eq
    simp only [Warmer.books, hrun, List.length_nil] at hactive
    exact ⟨hrun, hflight, by simpa [Warmer.stats] using hactive⟩
  · simp [Act.cancelled, hh.cancelled]
  · simp [HealthCheck.ofFlag, hh.unready]

/-- A service over a fresh cache in memory only, not started, with warming off. -/
def idleService : Host := { cache := TieredCache.create .lz4 {} true, service := some { config := {} } }

/-- A session that starts the service twice. -/
def restartCalls : List ServiceCall := [.start, .start]

/-- The session's turns: its first start, which asks for the sweep and the metrics loops, its second
start and the shutdown up to the wait for the loops, each loop ending, and the rest of the shutdown. -/
def restartCues : List Scene.Cue := [.main, .main, .fiber 0, .fiber 1, .main]

theorem twice_started_service_shuts_down_at_rest :
    ∃ answers h, Stage.Ends Host.stage idleService (ServiceCall.session restartCalls) answers h ∧
      answers = [.ok (), .error (.internal "cache service already started")] ∧
      h.service.map (·.running) = some 0 ∧ Act.cancelled h = true ∧
      (HealthCheck.ofFlag "readiness" h.ready "Service not ready").status = .unhealthy := by
  have hend := Scene.ends_play_get 100 restartCues
    (by decide : (⟨idleService, ServiceCall.session restartCalls, []⟩ :
      Scene Host (List (Except CacheError Unit))).playable Host.stage 100 restartCues = true)
    (by decide)
  obtain ⟨hanswers, hrun, -, -, hcancel, hready, -⟩ := shutdown_leaves_service_at_rest idleService _
    restartCalls _ _ rfl rfl rfl rfl (fun _ hw => by simp [idleService] at hw) (by simp [restartCalls]) hend
  exact ⟨_, _, hend, hanswers.trans rfl, hrun, hcancel, hready⟩

end TierCache
