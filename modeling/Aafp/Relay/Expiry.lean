import Aafp.Relay.ServiceRuns

/-! Whether a reservation that has expired stays so. -/
namespace Aafp.Relay

open Foundation Identity
open List hiding after

/-- The readings of the clock that a call makes, in their order. -/
def Call.readings : Call → List Instant
  | .reserve eviction now .. | .connect eviction now .. => [eviction.now, now]
  | .renew now .. => [now]
  | .evictExpired eviction => [eviction.now]
  | .cancel .. | .removeConnection _ => []

theorem Reservation.isExpired_of_le {reservation : Reservation} (expired : reservation.isExpired time = true)
    (later : time ≤ now) : reservation.isExpired now = true := by
  simp only [isExpired, decide_eq_true_eq] at expired ⊢
  exact Nat.le_trans expired later

namespace RelayV1Service

variable {config : RelayV1Config} {service : RelayV1Service} {id : UInt64}

theorem isOk_handleRenew : (service.handleRenew now callerId params).1.isOk = true ↔
    ∃ reservation, service.Renews callerId params reservation := by
  obtain ⟨_, same, none⟩ | ⟨reservation, renews, same⟩ := service.handleRenew_cases now callerId params
  · rw [same]
    exact iff_of_false Bool.false_ne_true (not_exists.mpr none)
  · rw [same]
    exact iff_of_true rfl ⟨reservation, renews⟩

theorem getReservation_evictExpired (found : service.getReservation id = some reservation)
    (active : ¬ reservation.isExpired eviction.now = true) :
    (service.evictExpired eviction).getReservation id = some reservation := by
  rw [evictExpired]
  have others : ∀ other ∈ ((eviction.pass.iterate service.reservations).filter fun entry =>
      entry.2.isExpired eviction.now).map Sigma.fst, id ≠ other := by
    intro other mem same
    obtain ⟨entry, listed, rfl⟩ := mem_map.mp mem
    obtain ⟨there, expired⟩ := mem_filter.mp listed
    cases found.symm.trans (same ▸ mem_iterate.mp there)
    exact active expired
  generalize ((eviction.pass.iterate service.reservations).filter _).map Sigma.fst = ids at others
  induction ids generalizing service with
  | nil => exact found
  | cons other ids ih =>
    obtain ⟨different, others⟩ := forall_mem_cons.mp others
    refine ih ?_ others
    rw [removeReservation]
    split
    · exact found
    · exact (AList.lookup_erase_ne different).trans found

/-- A renewal that passes all checks, of a reservation that has expired. -/
def RenewsExpired (service : RelayV1Service) : Call → Prop
  | .renew now callerId params =>
    ∃ reservation, service.Renews callerId params reservation ∧ reservation.isExpired now = true
  | _ => False

/-- The id was given out, and nothing is reserved under it at this time. -/
def Spent (id : UInt64) (time : Instant) (service : RelayV1Service) : Prop :=
  id < service.nextReservationId ∧
    ∀ reservation, service.getReservation id = some reservation → reservation.isExpired time = true

theorem Adds.spent (adds : Adds reservation connection before after) (spent : Spent id time before) :
    Spent id time after :=
  ⟨adds.reservations.lt spent.1, fun found there => spent.2 found (adds.kept id found spent.1 there)⟩

theorem Spent.step (spent : Spent id time service) (sound : Sound config service) (call : Call)
    (passed : ∀ now ∈ call.readings, time ≤ now) (respects : ¬ service.RenewsExpired call) :
    Spent id time (machine.step service call).2 := by
  cases call with
  | reserve eviction now callerId params => exact (sound.handleReserve eviction now callerId params).2.spent spent
  | renew now callerId params =>
    change Spent id time (service.handleRenew now callerId params).2
    obtain ⟨_, same, _⟩ | ⟨reservation, renews, same⟩ := service.handleRenew_cases now callerId params
    · rw [same]
      exact spent
    · have different : id ≠ params.reservationId := by
        rintro rfl
        have expired := spent.2 reservation renews.2.1
        exact respects ⟨reservation, renews, Reservation.isExpired_of_le expired (passed now (by simp [Call.readings]))⟩
      rw [same]
      exact ⟨spent.1, fun found there => spent.2 found ((AList.lookup_insert_ne different).symm.trans there)⟩
  | cancel callerId params => exact (sound.handleCancel callerId params).2.adds.spent spent
  | connect eviction now callerId params => exact (sound.handleConnect eviction now callerId params).2.spent spent
  | evictExpired eviction => exact (sound.evictExpired eviction).2.adds.spent spent
  | removeConnection other => exact spent

/-- What was expired is never active again, no renewal of it succeeds, and an eviction does not
decide whether a renewal does. -/
structure StaysExpired (config : RelayV1Config) (calls : List Call) : Prop where
  inactive : ∀ past more id reservation time, past ++ more <+: calls →
    (∀ now ∈ more.flatMap Call.readings, time ≤ now) →
    (machine.after (new config) past).getReservation id = some reservation → reservation.isExpired time = true →
    ∀ later ≥ time, ∀ found, (machine.after (new config) (past ++ more)).getReservation id = some found →
      found.isExpired later = true
  renewal : ∀ past now callerId params reservation, past ++ [.renew now callerId params] <+: calls →
    (machine.after (new config) past).getReservation params.reservationId = some reservation →
    reservation.isExpired now = true →
    ((machine.after (new config) past).handleRenew now callerId params).1.isOk = false
  independent : ∀ past now callerId params eviction, past ++ [.renew now callerId params] <+: calls →
    eviction.now ≤ now →
    (((machine.after (new config) past).evictExpired eviction).handleRenew now callerId params).1.isOk =
      ((machine.after (new config) past).handleRenew now callerId params).1.isOk

theorem spent_run {past more calls : List Call}
    (respects : machine.Meets (new config) (fun _ service call => ¬ service.RenewsExpired call) calls)
    (initial : past ++ more <+: calls) (passed : ∀ now ∈ more.flatMap Call.readings, time ≤ now)
    (spent : Spent id time (machine.after (new config) past)) :
    Spent id time (machine.after (new config) (past ++ more)) := by
  induction more using reverseRecOn with
  | nil => rwa [append_nil]
  | append_singleton more call ih =>
    rw [← append_assoc] at initial ⊢
    rw [flatMap_append, forall_mem_append, flatMap_singleton] at passed
    have before := ih ((prefix_append _ _).trans initial) passed.1
    rw [machine.after_concat]
    exact before.step (recorded_run config _).sound call passed.2 (respects _ _ initial)

/-- A renewal does not look at the expiry. -/
theorem stays_expired_iff (config : RelayV1Config) (calls : List Call) : StaysExpired config calls ↔
    machine.Meets (new config) (fun _ service call => ¬ service.RenewsExpired call) calls := by
  constructor
  · intro stays past call initial renewsExpired
    cases call with
    | renew now callerId params =>
      obtain ⟨reservation, renews, expired⟩ := renewsExpired
      have fails := stays.renewal past now callerId params reservation initial renews.2.1 expired
      rw [isOk_handleRenew.mpr ⟨reservation, renews⟩] at fails
      cases fails
    | _ => exact renewsExpired
  · intro respects
    have active : ∀ past now callerId params reservation, past ++ [.renew now callerId params] <+: calls →
        (machine.after (new config) past).Renews callerId params reservation → ¬ reservation.isExpired now = true :=
      fun past now callerId params reservation initial renews expired =>
        respects past _ initial ⟨reservation, renews, expired⟩
    refine ⟨?_, ?_, ?_⟩
    · intro past more id reservation time initial passed there expired later after found still
      have below := (recorded_run config past).sound.reservationIds id reservation there
      have spent : Spent id time (machine.after (new config) past) := by
        refine ⟨below, fun other also => ?_⟩
        cases there.symm.trans also
        exact expired
      exact Reservation.isExpired_of_le ((spent_run respects initial passed spent).2 found still) after
    · intro past now callerId params reservation initial there expired
      rw [Bool.eq_false_iff, ne_eq, isOk_handleRenew]
      intro ⟨other, renews⟩
      cases there.symm.trans renews.2.1
      exact active past now callerId params reservation initial renews expired
    · intro past now callerId params eviction initial before
      have sound := (recorded_run config past).sound
      obtain ⟨evicted, shrinks⟩ := sound.evictExpired eviction
      rw [Bool.eq_iff_iff, isOk_handleRenew, isOk_handleRenew]
      refine exists_congr fun reservation => ?_
      rw [Renews, Renews, evicted.configured, sound.configured]
      refine and_congr_right fun within => and_congr_left fun owned => ⟨shrinks.kept _ _, fun there => ?_⟩
      refine getReservation_evictExpired there fun expired => ?_
      refine active past now callerId params reservation initial ⟨?_, there, owned⟩
        (Reservation.isExpired_of_le expired before)
      rwa [sound.configured]

theorem expired_reservation_renewed :
    let agent : AgentId := ⟨replicate 32 7, rfl⟩
    let calls : List Call := [.reserve ⟨⟨fun entries => entries, List.Perm.refl⟩, 0⟩ 0 agent ⟨1⟩,
      .renew 2000000000 agent ⟨1, 1⟩]
    (calls.flatMap Call.readings).Pairwise (· ≤ ·) ∧ ¬ StaysExpired .default calls := by
  intro agent calls
  refine ⟨by decide +kernel, fun stays => ?_⟩
  have fails := stays.renewal (calls.take 1) 2000000000 agent ⟨1, 1⟩ ⟨1, agent, 0, 1000000000⟩ (by exact ⟨[], rfl⟩)
    (by decide +kernel) (by decide +kernel)
  revert fails
  decide +kernel

end RelayV1Service

end Aafp.Relay
