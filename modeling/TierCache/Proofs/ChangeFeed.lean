import Mathlib
import TierCache.Proofs.CacheTraffic

/-!
# What the follower and the trigger queue hear

The follower hears each write that worked, every removal and every invalidation; the trigger queue
is offered the key of each write that worked.

Main statement: `follower_and_trigger_queue_hear_changes`.
-/

namespace TierCache

/-! ## Delivery one by one -/

namespace EventFeed

/-- With room for them all, events published to a feed join its unread events in order, and none
is lost. -/
theorem foldl_publish_of_room :
    ∀ (es : List CacheEvent) (f : EventFeed), f.unread.length + es.length ≤ eventBuffer →
      es.foldl publish f = { f with unread := f.unread ++ es }
  | [], f, _ => by simp
  | e :: es, f, hroom => by
    have hkept : f.publish e = { f with unread := f.unread ++ [e] } := by
      simp only [publish, List.length_append, List.length_singleton]
      rw [if_neg (by simp only [List.length_cons] at hroom; omega)]
    rw [List.foldl_cons, hkept, foldl_publish_of_room es _ (by simp at hroom ⊢; omega)]
    simp

end EventFeed

namespace TriggerQueue

/-- A live queue that nobody reads takes the first keys offered while it has room, in order, and
counts each later one as dropped. -/
theorem foldl_offerCounting_live :
    ∀ (keys : List String) (q : TriggerQueue) (dropped : Nat), q.closed = false →
      keys.foldl offerCounting (some q, dropped) =
        (some { q with keys := q.keys ++ keys.take (q.capacity - q.keys.length) },
          dropped + (keys.length - (q.capacity - q.keys.length)))
  | [], q, dropped, _ => by simp
  | key :: keys, q, dropped, hlive => by
    rw [List.foldl_cons]
    by_cases hroom : q.keys.length < q.capacity
    · -- the key is queued, and the rest are offered to the longer queue
      have hstep : offerCounting (some q, dropped) key = (some { q with keys := q.keys ++ [key] }, dropped) := by
        simp [offerCounting, offer, hlive, hroom]
      have hfree : q.capacity - q.keys.length = (q.capacity - (q.keys.length + 1)) + 1 := by omega
      rw [hstep, foldl_offerCounting_live keys { q with keys := q.keys ++ [key] } dropped hlive]
      simp only [List.length_append, List.append_assoc, hfree, List.take_succ_cons, List.singleton_append,
        List.length_cons, List.length_nil, Prod.mk.injEq, true_and]
      omega
    · -- a full queue stays full: every key from here on is dropped
      have hstep : offerCounting (some q, dropped) key = (some q, dropped + 1) := by
        simp [offerCounting, offer, hlive, hroom]
      have hfull : q.capacity - q.keys.length = 0 := by omega
      rw [hstep, foldl_offerCounting_live keys q (dropped + 1) hlive, hfull]
      simp only [List.take_zero, List.append_nil, List.length_cons, Prod.mk.injEq, true_and]
      omega

end TriggerQueue

/-! ## What each request publishes and offers -/

namespace Request

/-- The events a request publishes: a write that worked, with its strategy; a removal, whatever it
answered; an invalidation, with the count it answered. -/
def published (r : Request) (reply : Reply) : List CacheEvent :=
  match r, reply with
  | call (.set key _ _ strategy), .answer (.flag true) => [.set key strategy]
  | set key (.ok _) _ strategy, .answer (.flag true) => [.set key strategy]
  | call (.delete key), _ => [.delete key]
  | call (.invalidate pattern), .answer (.count n) => [.invalidate pattern n]
  | _, _ => []

/-- The keys a request offers to the trigger queue: the key of a write that worked. -/
def offered (r : Request) (reply : Reply) : List String :=
  match r, reply with
  | call (.set key ..), .answer (.flag true) | set key (.ok _) .., .answer (.flag true) => [key]
  | _, _ => []

/-- The events a log publishes, in order. -/
def publishedBy (log : List (Request × Reply)) : List CacheEvent := log.flatMap fun e => e.1.published e.2

/-- The keys a log offers to the trigger queue, in order. -/
def offeredBy (log : List (Request × Reply)) : List String := log.flatMap fun e => e.1.offered e.2

variable {r : Request} {reply : Reply}

/-- One request delivers its events to the follower and its keys to the trigger queue, and
nothing else reaches either. -/
theorem feed_effect (h : r.Fits reply) (t : Traffic) :
    (r.effect reply t).events = (r.published reply).foldl (fun feed e => feed.map (·.publish e)) t.events ∧
      (r.effect reply t).queue = (r.offered reply).foldl TriggerQueue.offerCounting t.queue := by
  -- the reads split on what they found, the writes on whether they worked
  cases h
  case get found | read found | readOr found => cases found <;> exact ⟨rfl, rfl⟩
  case setRaw ok | write ok => cases ok <;> exact ⟨rfl, rfl⟩
  all_goals exact ⟨rfl, rfl⟩

/-- A view of the traffic that each entry of a log moves by delivering its items one by one ends
moved by the log's items, in order. -/
theorem effects_deliver {V β : Type} (view : Traffic → V) (items : Request × Reply → List β)
    (deliver : V → β → V)
    (hstep : ∀ e t, e.1.Fits e.2 → view (e.1.effect e.2 t) = (items e).foldl deliver (view t)) :
    ∀ (log : List (Request × Reply)) (t : Traffic), (∀ e ∈ log, e.1.Fits e.2) →
      view (effects log t) = (log.flatMap items).foldl deliver (view t)
  | [], _, _ => rfl
  | e :: log, t, hfits => by
    rw [effects_cons, effects_deliver view items deliver hstep log _
      (fun e' he' => hfits e' (List.mem_cons_of_mem _ he')), hstep e t (hfits e List.mem_cons_self),
      List.flatMap_cons, List.foldl_append]

end Request

variable {h h' : Host} {rs : List Request} {log : List (Request × Reply)}

/-- Over any run of a caller's requests, beside the write-behind writes its sets schedule and with
the clock moving as it likes, the follower receives the log's events in order and the trigger queue
is offered the log's keys in order, one by one. With room for all the events, the follower holds
exactly them after what it held and loses none; a live trigger queue takes the first keys that fit,
in order, and counts each of the others as dropped. -/
theorem follower_and_trigger_queue_hear_changes (hreq : h.requested = []) (hsplit : h.cache.HitsSplit)
    (hrun : Host.stage.Ends h (Request.program rs) log h') :
    log.map (·.1) = rs ∧ (∀ e ∈ log, e.1.Fits e.2) ∧
      h'.cache.events =
        (Request.publishedBy log).foldl (fun feed e => feed.map (·.publish e)) h.cache.events ∧
      (∀ f, h.cache.events = some f → f.unread.length + (Request.publishedBy log).length ≤ eventBuffer →
        h'.cache.events = some { f with unread := f.unread ++ Request.publishedBy log }) ∧
      (h'.cache.triggers, h'.cache.metrics.warmTriggersDropped) =
        (Request.offeredBy log).foldl TriggerQueue.offerCounting
          (h.cache.triggers, h.cache.metrics.warmTriggersDropped) ∧
      (∀ q, h.cache.triggers = some q → q.closed = false →
        h'.cache.triggers =
          some { q with keys := q.keys ++ (Request.offeredBy log).take (q.capacity - q.keys.length) } ∧
        h'.cache.metrics.warmTriggersDropped = h.cache.metrics.warmTriggersDropped +
          ((Request.offeredBy log).length - (q.capacity - q.keys.length))) := by
  obtain ⟨htraffic, -⟩ := traffic_of_ends hreq hsplit hrun
  obtain ⟨hcalls, hfits⟩ := Request.fits_of_ends hrun
  -- the follower's feed and the queue are views of the traffic, moved entry by entry
  have hevents : h'.cache.events =
      (Request.publishedBy log).foldl (fun feed e => feed.map (·.publish e)) h.cache.events := by
    have hdeliver := Request.effects_deliver Traffic.events _ _
      (fun _ t hf => (Request.feed_effect hf t).1) log h.cache.traffic hfits
    rw [← htraffic] at hdeliver
    exact hdeliver
  have hqueue : (h'.cache.triggers, h'.cache.metrics.warmTriggersDropped) =
      (Request.offeredBy log).foldl TriggerQueue.offerCounting
        (h.cache.triggers, h.cache.metrics.warmTriggersDropped) := by
    have hdeliver := Request.effects_deliver Traffic.queue _ _
      (fun _ t hf => (Request.feed_effect hf t).2) log h.cache.traffic hfits
    rw [← htraffic] at hdeliver
    exact hdeliver
  refine ⟨hcalls, hfits, hevents, fun f hf hroom => ?_, hqueue, fun q hq hlive => ?_⟩
  · -- a feed delivered to one event at a time is the feed after all of them
    have hmap : ∀ (es : List CacheEvent) (f : EventFeed),
        es.foldl (fun feed e => feed.map (·.publish e)) (some f) = some (es.foldl EventFeed.publish f) := by
      intro es
      induction es with
      | nil => exact fun _ => rfl
      | cons e es ih => exact fun f => ih (f.publish e)
    rw [hevents, hf, hmap, EventFeed.foldl_publish_of_room _ f hroom]
  · rw [hq, TriggerQueue.foldl_offerCounting_live _ q _ hlive] at hqueue
    simp only [Prod.mk.injEq] at hqueue
    exact hqueue

/-- Two writes and a removal heard by a follower and by a trigger queue with room for one key: the
follower holds the three events and the queue the first key, the second counted as dropped. -/
theorem two_writes_and_a_removal_heard :
    ∃ log h', Host.stage.Ends
        { cache := { TieredCache.create .lz4 {} false with events := some {}, triggers := some { capacity := 1 } } }
        (Request.program [.call (.set "a" "1".toUTF8 none .cacheAside),
          .call (.set "b" "2".toUTF8 none .cacheAside), .call (.delete "a")]) log h' ∧
      (h'.cache.events.map fun f => f.unread.map CacheEvent.subject) = some ["a", "b", "a"] ∧
      (h'.cache.triggers.map (·.keys)) = some ["a"] ∧ h'.cache.metrics.warmTriggersDropped = 1 := by
  have hrun : Host.stage.Ends
      { cache := { TieredCache.create .lz4 {} false with events := some {}, triggers := some { capacity := 1 } } }
      (Request.program [.call (.set "a" "1".toUTF8 none .cacheAside),
        .call (.set "b" "2".toUTF8 none .cacheAside), .call (.delete "a")]) _ _ :=
    Scene.ends_play_get 100 [.main, .main, .main] (by decide +kernel) (by decide +kernel)
  obtain ⟨-, -, -, hroom, -, hlive⟩ :=
    follower_and_trigger_queue_hear_changes (by exact rfl) (by exact rfl) hrun
  obtain ⟨htriggers, hdropped⟩ := hlive _ rfl rfl
  refine ⟨_, _, hrun, ?_, ?_, ?_⟩
  · rw [hroom {} rfl (by decide +kernel)]
    decide +kernel
  · rw [htriggers]
    decide +kernel
  · rw [hdropped]
    decide +kernel

end TierCache
