import TierCache.Console.Session

/-!
# Settings that pass the checks and still cannot be built

Main statement: `validated_settings_with_long_retention_halt`.
-/

namespace TierCache

-- The checks never read the retention.
theorem CacheConfig.validate_retention (c : CacheConfig) (r : Int) :
    ({ c with warming := { c.warming with retentionDays := r } } : CacheConfig).validate = c.validate :=
  rfl

theorem daysSpan_of_beyond {days : Int} (h : maxSpanSeconds < days * 86400) :
    daysSpan days = .error .daysOutOfBounds := by
  simp [daysSpan, h]

-- A retention of at least a day that the clock cannot span refuses the tracker, and with it the
-- scheduler.
theorem Warmer.create_of_beyond (w : WarmingSettings) (h : maxSpanSeconds < max w.retentionDays 1 * 86400) :
    Warmer.create w = .error .daysOutOfBounds := by
  simp [Warmer.create, AccessTracker.create, daysSpan_of_beyond h, bind, Except.bind]

/-- Settings the checks accept, with a retention of at least a day longer than the clock can
span, are still accepted, and the service built from them stops as its warming scheduler is
built: the tracker cannot hold the retention. -/
theorem validated_settings_with_long_retention_halt (c : CacheConfig) (hvalid : c.validate = .ok ())
    (r : Int) (hr : maxSpanSeconds < max r 1 * 86400) :
    ({ c with warming := { c.warming with retentionDays := r } } : CacheConfig).validate = .ok () ∧
      Warmer.create { c.warming with retentionDays := r } = .error .daysOutOfBounds ∧
      Console.Session.warmer { c with warming := { c.warming with retentionDays := r } } =
        .error (Console.halted "TimeDelta::days out of bounds") := by
  have hcreate : Warmer.create { c.warming with retentionDays := r } = .error .daysOutOfBounds :=
    Warmer.create_of_beyond _ hr
  refine ⟨(CacheConfig.validate_retention c r).trans hvalid, hcreate, ?_⟩
  show (Warmer.create _).mapError _ = _
  rw [hcreate]
  rfl

/-- The default settings with a retention of a trillion days. -/
theorem default_settings_with_long_retention_halt :
    ({} : CacheConfig).validate = .ok () ∧ maxSpanSeconds < max 1000000000000 1 * 86400 ∧
      (({ ({} : CacheConfig) with warming := { ({} : CacheConfig).warming with
          retentionDays := 1000000000000 } } : CacheConfig).validate = .ok () ∧
        Warmer.create { ({} : CacheConfig).warming with retentionDays := 1000000000000 } =
          .error .daysOutOfBounds ∧
        Console.Session.warmer { ({} : CacheConfig) with warming := { ({} : CacheConfig).warming with
          retentionDays := 1000000000000 } } =
          .error (Console.halted "TimeDelta::days out of bounds")) :=
  ⟨rfl, by decide, validated_settings_with_long_retention_halt {} rfl 1000000000000 (by decide)⟩

/-- The checks accept a retention of a trillion days, and the scheduler of a service with it
cannot be built: the service stops as it starts up. -/
theorem trillion_day_retention_passes_checks_and_halts :
    ({ warming := { retentionDays := 1000000000000 } } : CacheConfig).validate = .ok () ∧
      Console.Session.warmer { warming := { retentionDays := 1000000000000 } } =
        .error (Console.halted "TimeDelta::days out of bounds") := by
  have hcreate : Warmer.create { retentionDays := 1000000000000 } = .error .daysOutOfBounds :=
    Warmer.create_of_beyond _ (by decide)
  refine ⟨rfl, ?_⟩
  show (Warmer.create _).mapError _ = _
  rw [hcreate]
  rfl

end TierCache
