import Mathlib.Data.Rat.Lemmas
import Mathlib.Tactic.FieldSimp
import Mathlib.Tactic.Linarith
import Mathlib.Tactic.Positivity
import Mathlib.Tactic.Ring
import MissionServer.Proof.RcControl

/-!
# The gimbal as an integer automaton

The angles that RC_CHANNELS steers move in steps of 0.3 degrees between bounds that are whole tenths, so
the handler's arithmetic is that of an automaton over integers, in tenths of a degree. The commands sent
are the automaton's angles, without loss. The automaton that the sticks are meant to drive divides by the
difference of the configured ends, the handler's by that difference as an `int`.
-/

namespace MissionServer

/-! ### The automaton -/

/-- The angles in tenths of a degree, and the remembered position of the re-centre button. -/
structure GimbalLaw where
  yaw : Int := 0
  pitch : Int := 0
  buttonALast : UInt16 := 0
  deriving DecidableEq, Repr

def ConfigRc.span (config : ConfigRc) : Int := config.max - config.min

/-- The same in the arithmetic of `int`. -/
def ConfigRc.intSpan (config : ConfigRc) : Int := (config.max - config.min).bmod (2 ^ 32)

/-- How far a stick moves its axis: three tenths, where it is more than half way out. -/
def axisMove (span : ConfigRc → Int) (config : ConfigRc) (raw : UInt16) : Int :=
  let deflection := (raw.toNat : Int) - config.mid
  if 4 * |deflection| > |span config| then
    3 * (deflection * span config).sign * (if config.reverse then -1 else 1)
  else 0

def clampTenths (low high angle : Int) : Int := max low (min high angle)

/-- One message. The law is the automaton of `ConfigRc.span`. -/
def gimbalStep (span : ConfigRc → Int) (table : RcTable) (g : GimbalLaw) (rc : RcChannels) : GimbalLaw × (Int × Int) :=
  let yaw := clampTenths (-1350) 1350 (g.yaw + axisMove span (yawConfig table) rc.chan1Raw)
  let pitch := clampTenths (-900) 250 (g.pitch + axisMove span (pitchConfig table) rc.chan2Raw)
  let last := if g.buttonALast = 0 then rc.chan5Raw else g.buttonALast
  if rc.chan5Raw ≠ last then ({ yaw := 0, pitch := 0, buttonALast := rc.chan5Raw }, (0, 0))
  else ({ yaw, pitch, buttonALast := last }, (yaw, pitch))

/-! ### One axis -/

def reverseSign (config : ConfigRc) : Int := if config.reverse then -1 else 1

theorem reverseSign_cases (config : ConfigRc) : reverseSign config = 1 ∨ reverseSign config = -1 := by
  rw [reverseSign]
  cases config.reverse
  · exact .inl rfl
  · exact .inr rfl

/-- The ends are numbers of the type `int`, and differ. -/
structure ConfigRc.Ranged (config : ConfigRc) : Prop where
  min : -2 ^ 31 ≤ config.min ∧ config.min < 2 ^ 31
  max : -2 ^ 31 ≤ config.max ∧ config.max < 2 ^ 31
  ne : config.max ≠ config.min

/-- A difference that is no `int` wraps to one of the other sign, and not a larger one. -/
theorem intSpan_cases {config : ConfigRc} (hranged : config.Ranged) :
    config.intSpan = config.span ∨
      |config.intSpan| ≤ |config.span| ∧
        (config.intSpan < 0 ∧ 0 < config.span ∨ 0 < config.intSpan ∧ config.span < 0) := by
  obtain ⟨hmin, hmax, hne⟩ := hranged
  rw [ConfigRc.intSpan, ConfigRc.span, Int.bmod_def, Int.abs_eq_natAbs, Int.abs_eq_natAbs]
  split <;> omega

theorem intSpan_ne_zero {config : ConfigRc} (hranged : config.Ranged) : config.intSpan ≠ 0 := by
  have hne : config.span ≠ 0 := sub_ne_zero.mpr hranged.ne
  obtain heq | ⟨-, ⟨hneg, -⟩ | ⟨hpos, -⟩⟩ := intSpan_cases hranged
  · rwa [heq]
  · exact hneg.ne
  · exact hpos.ne'

theorem rcSignal_eq (raw : UInt16) (config : ConfigRc) :
    rcSignal raw config =
      ((((raw.toNat : Int) - config.mid) * reverseSign config : Int) : Rat) / (config.intSpan : Rat) * 200 := by
  rw [rcSignal, reverseSign, ConfigRc.intSpan]
  cases config.reverse
  all_goals
    push_cast
    ring

theorem fifty_lt_abs_rcSignal_iff (raw : UInt16) {config : ConfigRc} (hspan : config.intSpan ≠ 0) :
    50 < |rcSignal raw config| ↔ |config.intSpan| < 4 * |(raw.toNat : Int) - config.mid| := by
  have hpos : (0 : Rat) < |(config.intSpan : Rat)| := abs_pos.mpr (Int.cast_ne_zero.mpr hspan)
  have hunit : |reverseSign config| = 1 := by
    obtain hsign | hsign := reverseSign_cases config <;> simp [hsign]
  have habs : |rcSignal raw config| =
      (|(raw.toNat : Int) - config.mid| : Int) * 200 / |(config.intSpan : Rat)| := by
    rw [rcSignal_eq, abs_mul, abs_div, ← Int.cast_abs, abs_mul, hunit, mul_one, div_mul_eq_mul_div]
    norm_num
  rw [habs, lt_div_iff₀ hpos, ← Int.cast_abs]
  constructor
  · intro h
    have : ((|config.intSpan| : Int) : Rat) < ((4 * |(raw.toNat : Int) - config.mid| : Int) : Rat) := by
      push_cast at h ⊢
      linarith
    exact_mod_cast this
  · intro h
    have : ((|config.intSpan| : Int) : Rat) < ((4 * |(raw.toNat : Int) - config.mid| : Int) : Rat) := by
      exact_mod_cast h
    push_cast at this ⊢
    linarith

theorem rcSignal_neg_iff (raw : UInt16) {config : ConfigRc} (hspan : config.intSpan ≠ 0) :
    rcSignal raw config < 0 ↔
      ((raw.toNat : Int) - config.mid) * config.intSpan * reverseSign config < 0 := by
  have hne : (config.intSpan : Rat) ≠ 0 := Int.cast_ne_zero.mpr hspan
  have hsq : (0 : Rat) < 200 / (config.intSpan : Rat) ^ 2 := by positivity
  have hprod : rcSignal raw config =
      ((((raw.toNat : Int) - config.mid) * config.intSpan * reverseSign config : Int) : Rat) *
        (200 / (config.intSpan : Rat) ^ 2) := by
    rw [rcSignal_eq]
    push_cast at hne ⊢
    field_simp
  rw [hprod, mul_neg_iff]
  constructor
  · intro h
    obtain ⟨-, hneg⟩ | ⟨hneg, -⟩ := h
    · exact absurd hsq (not_lt.mpr hneg.le)
    · exact_mod_cast hneg
  · intro h
    exact .inr ⟨by exact_mod_cast h, hsq⟩

theorem rcIncrease_tenths (angle : Int) (raw : UInt16) {config : ConfigRc} (hspan : config.intSpan ≠ 0) :
    rcIncrease ((angle : Rat) / 10) (rcSignal raw config) =
      ((angle + axisMove ConfigRc.intSpan config raw : Int) : Rat) / 10 := by
  have hmove : axisMove ConfigRc.intSpan config raw =
      if |config.intSpan| < 4 * |(raw.toNat : Int) - config.mid| then
        3 * if rcSignal raw config < 0 then -1 else 1
      else 0 := by
    simp only [axisMove, rcSignal_neg_iff raw hspan, gt_iff_lt]
    split
    case isFalse => rfl
    case isTrue hout =>
      have hdeflection : (raw.toNat : Int) - config.mid ≠ 0 := by
        intro hzero
        rw [hzero, abs_zero, mul_zero] at hout
        exact absurd hout (not_lt.mpr (abs_nonneg _))
      have hne : ((raw.toNat : Int) - config.mid) * config.intSpan ≠ 0 :=
        mul_ne_zero hdeflection hspan
      generalize ((raw.toNat : Int) - config.mid) * config.intSpan = product at hne
      obtain hneg | hpos := lt_or_gt_of_ne hne
      · rw [Int.sign_eq_neg_one_of_neg hneg]
        rw [reverseSign]
        cases config.reverse <;> simp [hneg, hneg.le]
      · rw [Int.sign_eq_one_of_pos hpos]
        rw [reverseSign]
        cases config.reverse <;> simp [hpos, hpos.le]
  rw [hmove, rcIncrease]
  by_cases hout : |config.intSpan| < 4 * |(raw.toNat : Int) - config.mid|
  · rw [if_pos ((fifty_lt_abs_rcSignal_iff raw hspan).mpr hout), if_pos hout]
    split
    all_goals
      push_cast
      ring
  · rw [if_neg (fun h => hout ((fifty_lt_abs_rcSignal_iff raw hspan).mp h)), if_neg hout, add_zero]

theorem boundFloat_tenths (angle low high : Int) (hle : low ≤ high) :
    boundFloat ((angle : Rat) / 10) ((high : Rat) / 10) ((low : Rat) / 10) =
      ((clampTenths low high angle : Int) : Rat) / 10 := by
  have hcmp (a b : Int) : (a : Rat) / 10 < (b : Rat) / 10 ↔ a < b := by
    rw [div_lt_div_iff_of_pos_right (by norm_num), Int.cast_lt]
  rw [boundFloat, clampTenths]
  by_cases hhigh : high < angle
  · rw [if_pos ((hcmp high angle).mpr hhigh), min_eq_left hhigh.le, max_eq_right hle]
  · rw [if_neg (fun h => hhigh ((hcmp high angle).mp h)), min_eq_right (not_lt.mp hhigh)]
    by_cases hlow : angle < low
    · rw [if_pos ((hcmp angle low).mpr hlow), max_eq_left hlow.le]
    · rw [if_neg (fun h => hlow ((hcmp angle low).mp h)), max_eq_right (not_lt.mp hlow)]

/-- A whole number of tenths that fits in 16 bits is commanded exactly. -/
theorem toInt16_tenths {angle : Int} (hlow : -32768 ≤ angle) (hhigh : angle ≤ 32767) :
    (toInt16 ((angle : Rat) / 10 * 10)).toInt = angle := by
  rw [div_mul_cancel₀ _ (by norm_num), toInt16, Rat.num_intCast, Rat.den_intCast]
  simp only [Nat.cast_one, Int.tdiv_one]
  exact Int16.toInt_ofInt_of_le (by simpa using hlow) (by omega)

/-! ### One message -/

/-- The handler's statics are those of the automaton, scaled. -/
structure GimbalLaw.Tracks (g : GimbalLaw) (s : RcStatics) : Prop where
  yaw : s.camYaw = (g.yaw : Rat) / 10
  pitch : s.camPitch = (g.pitch : Rat) / 10
  button : s.buttonALast = g.buttonALast

/-- The pairs that a message sends to `gimbal_rotate`. -/
def gimbalRotations (actions : List RcAction) : List (Int × Int) :=
  actions.filterMap fun
    | .rotate yaw pitch => some (yaw.toInt, pitch.toInt)
    | _ => none

/-- Both sticks have a range. -/
structure GimbalRanged (table : RcTable) : Prop where
  yaw : (yawConfig table).Ranged
  pitch : (pitchConfig table).Ranged

theorem clampTenths_mem {low high : Int} (angle : Int) (hle : low ≤ high) :
    low ≤ clampTenths low high angle ∧ clampTenths low high angle ≤ high :=
  ⟨le_max_left _ _, max_le hle (min_le_left _ _)⟩

/-- The angles of the automaton before the button is looked at. -/
def GimbalLaw.steered (span : ConfigRc → Int) (g : GimbalLaw) (table : RcTable) (rc : RcChannels) : Int × Int :=
  (clampTenths (-1350) 1350 (g.yaw + axisMove span (yawConfig table) rc.chan1Raw),
    clampTenths (-900) 250 (g.pitch + axisMove span (pitchConfig table) rc.chan2Raw))

theorem gimbalStep_eq (span : ConfigRc → Int) (table : RcTable) (g : GimbalLaw) (rc : RcChannels) :
    let angles := if rcChanged g.buttonALast rc.chan5Raw then 0 else g.steered span table rc
    gimbalStep span table g rc = ({ yaw := angles.1, pitch := angles.2, buttonALast := rc.chan5Raw }, angles) := by
  intro angles
  simp only [gimbalStep, ne_remembered_iff]
  by_cases hbutton : rcChanged g.buttonALast rc.chan5Raw = true
  · simp only [angles, hbutton, if_true]
    rfl
  · have hlast : (if g.buttonALast = 0 then rc.chan5Raw else g.buttonALast) = rc.chan5Raw := by
      by_contra hne
      exact hbutton ((ne_remembered_iff _ _).mp (Ne.symm hne))
    simp only [angles, hbutton, hlast]
    rfl

/-- The angles of the automaton are those of the gimbal. -/
def GimbalLaw.InRange (g : GimbalLaw) : Prop := (-1350 ≤ g.yaw ∧ g.yaw ≤ 1350) ∧ -900 ≤ g.pitch ∧ g.pitch ≤ 250

theorem gimbalStart_inRange : ({} : GimbalLaw).InRange := by
  simp [GimbalLaw.InRange]

theorem gimbalStep_inRange (span : ConfigRc → Int) (table : RcTable) (g : GimbalLaw) (rc : RcChannels) :
    (gimbalStep span table g rc).1.InRange := by
  rw [gimbalStep_eq]
  cases rcChanged g.buttonALast rc.chan5Raw
  · exact ⟨clampTenths_mem _ (by omega), clampTenths_mem _ (by omega)⟩
  · simp [GimbalLaw.InRange]

theorem gimbalStep_sends (span : ConfigRc → Int) (table : RcTable) (g : GimbalLaw) (rc : RcChannels) :
    (gimbalStep span table g rc).2 = ((gimbalStep span table g rc).1.yaw, (gimbalStep span table g rc).1.pitch) := by
  rw [gimbalStep_eq]

theorem gimbalStep_mem (span : ConfigRc → Int) (table : RcTable) (g : GimbalLaw) (rc : RcChannels) :
    (-1350 ≤ (gimbalStep span table g rc).2.1 ∧ (gimbalStep span table g rc).2.1 ≤ 1350) ∧
      -900 ≤ (gimbalStep span table g rc).2.2 ∧ (gimbalStep span table g rc).2.2 ≤ 250 := by
  rw [gimbalStep_sends]
  exact gimbalStep_inRange span table g rc

theorem angles_eq {table : RcTable} (hranged : GimbalRanged table) {g : GimbalLaw} {s : RcStatics} (h : g.Tracks s)
    (rc : RcChannels) :
    s.angles rc table =
      (((gimbalStep ConfigRc.intSpan table g rc).2.1 : Rat) / 10,
        ((gimbalStep ConfigRc.intSpan table g rc).2.2 : Rat) / 10) := by
  have hyaw := boundFloat_tenths (g.yaw + axisMove ConfigRc.intSpan (yawConfig table) rc.chan1Raw) (-1350) 1350
    (by decide)
  have hpitch := boundFloat_tenths (g.pitch + axisMove ConfigRc.intSpan (pitchConfig table) rc.chan2Raw) (-900) 250
    (by decide)
  rw [← rcIncrease_tenths g.yaw rc.chan1Raw (intSpan_ne_zero hranged.yaw), ← h.yaw] at hyaw
  rw [← rcIncrease_tenths g.pitch rc.chan2Raw (intSpan_ne_zero hranged.pitch), ← h.pitch] at hpitch
  norm_num at hyaw hpitch
  rw [gimbalStep_eq, RcStatics.angles, RcStatics.steered, h.button, hyaw, hpitch]
  cases rcChanged g.buttonALast rc.chan5Raw
  · rfl
  · simp [Prod.ext_iff]

theorem gimbalRotations_zoom (rc : RcChannels) (table : RcTable) (s : RcStatics) :
    gimbalRotations (RcPart.zoom rc table s).2 = [] := by
  rw [RcPart.zoom]
  split_ifs <;> rfl

theorem gimbalRotations_rcHandle (rc : RcChannels) (table : RcTable) (s : RcStatics) :
    gimbalRotations (rcHandle rc table s).2 =
      [((toInt16 ((s.angles rc table).1 * 10)).toInt, (toInt16 ((s.angles rc table).2 * 10)).toInt)] := by
  have hzoom := gimbalRotations_zoom rc table s
  rw [gimbalRotations] at hzoom
  rw [rcHandle_eq]
  simp only [gimbalRotations, List.filterMap_append, hzoom]
  split_ifs <;> rfl

/-- One message: the handler does what the automaton does that divides by the `int`. -/
theorem GimbalLaw.Tracks.step {table : RcTable} (hranged : GimbalRanged table) {g : GimbalLaw} {s : RcStatics}
    (h : g.Tracks s) (rc : RcChannels) :
    (gimbalStep ConfigRc.intSpan table g rc).1.Tracks (rcHandle rc table s).1 ∧
      gimbalRotations (rcHandle rc table s).2 = [(gimbalStep ConfigRc.intSpan table g rc).2] := by
  have hangles := angles_eq hranged h rc
  obtain ⟨hyaw, hpitch⟩ := gimbalStep_mem ConfigRc.intSpan table g rc
  constructor
  · rw [rcHandle_eq, hangles, gimbalStep_eq]
    exact ⟨rfl, rfl, rfl⟩
  · rw [gimbalRotations_rcHandle, hangles, toInt16_tenths (by omega) (by omega), toInt16_tenths (by omega) (by omega)]

/-! ### Two runs -/

/-- The table with the direction of channel 1 turned round. -/
def reverseChannel1 (table : RcTable) : RcTable :=
  Function.update table 0 { table 0 with reverse := !(table 0).reverse }

theorem configs_reverseChannel1 (table : RcTable) :
    yawConfig (reverseChannel1 table) = { yawConfig table with reverse := !(yawConfig table).reverse } ∧
      pitchConfig (reverseChannel1 table) = pitchConfig table := ⟨rfl, rfl⟩

theorem axisMove_reverse (config : ConfigRc) (raw : UInt16) :
    axisMove ConfigRc.intSpan { config with reverse := !config.reverse } raw =
      -axisMove ConfigRc.intSpan config raw := by
  unfold axisMove ConfigRc.intSpan
  dsimp only
  split
  · cases config.reverse <;> simp
  · rfl

theorem clampTenths_neg {bound : Int} (hbound : 0 ≤ bound) (angle : Int) :
    clampTenths (-bound) bound (-angle) = -clampTenths (-bound) bound angle := by
  unfold clampTenths
  omega

def mirrorYaw (angles : Int × Int) : Int × Int := (-angles.1, angles.2)

theorem gimbalStep_reverse (table : RcTable) (g : GimbalLaw) (rc : RcChannels) :
    gimbalStep ConfigRc.intSpan (reverseChannel1 table) { g with yaw := -g.yaw } rc =
      ({ (gimbalStep ConfigRc.intSpan table g rc).1 with yaw := -(gimbalStep ConfigRc.intSpan table g rc).1.yaw },
        mirrorYaw (gimbalStep ConfigRc.intSpan table g rc).2) := by
  obtain ⟨hyaw, hpitch⟩ := configs_reverseChannel1 table
  rw [gimbalStep_eq, gimbalStep_eq]
  simp only [GimbalLaw.steered, hyaw, hpitch, axisMove_reverse, ← Int.neg_add,
    clampTenths_neg (by decide : (0 : Int) ≤ 1350)]
  cases rcChanged g.buttonALast rc.chan5Raw
  · rfl
  · simp [mirrorYaw, Prod.ext_iff]

theorem gimbalLaw_mirrored (table : RcTable) (rcs : List RcChannels) :
    Transducer.outputs (gimbalStep ConfigRc.intSpan (reverseChannel1 table)) {} rcs =
      (Transducer.outputs (gimbalStep ConfigRc.intSpan table) {} rcs).map mirrorYaw := by
  symm
  apply Transducer.map_outputs_eq (R := fun (g g' : GimbalLaw) => g' = { g with yaw := -g.yaw })
  · intro g g' rc hrel
    rw [hrel, gimbalStep_reverse]
    exact ⟨rfl, rfl⟩
  · rfl

/-! ### Where both automata agree -/

/-- Both differences move an axis to the same angle: they are equal, or neither moves it, or the axis stands at the
stop that the one alone would move it to. -/
def AxisKept (config : ConfigRc) (low high angle : Int) (raw : UInt16) : Prop :=
  let deflection := (raw.toNat : Int) - config.mid
  config.intSpan = config.span ∨ 4 * |deflection| ≤ |config.intSpan| ∨
    4 * |deflection| ≤ |config.span| ∧
      angle = if 0 < deflection * config.intSpan * reverseSign config then high else low

instance (config : ConfigRc) (low high angle : Int) (raw : UInt16) : Decidable (AxisKept config low high angle raw) :=
  inferInstanceAs (Decidable (_ ∨ _ ∨ _))

theorem axisMove_of_le {span : ConfigRc → Int} {config : ConfigRc} {raw : UInt16}
    (h : 4 * |(raw.toNat : Int) - config.mid| ≤ |span config|) : axisMove span config raw = 0 :=
  if_neg (not_lt.mpr h)

/-- Outside its dead zone a stick moves its axis by three tenths, one way or the other. -/
theorem axisMove_of_lt {span : ConfigRc → Int} {config : ConfigRc} {raw : UInt16} (hspan : span config ≠ 0)
    (h : |span config| < 4 * |(raw.toNat : Int) - config.mid|) :
    (0 < ((raw.toNat : Int) - config.mid) * span config * reverseSign config ∧ axisMove span config raw = 3) ∨
    (((raw.toNat : Int) - config.mid) * span config * reverseSign config < 0 ∧ axisMove span config raw = -3) := by
  have hdeflection : (raw.toNat : Int) - config.mid ≠ 0 := by
    intro hzero
    rw [hzero, abs_zero, mul_zero] at h
    exact absurd h (not_lt.mpr (abs_nonneg _))
  have hne := mul_ne_zero hdeflection hspan
  rw [axisMove, if_pos h, reverseSign]
  generalize ((raw.toNat : Int) - config.mid) * span config = product at hne ⊢
  obtain hneg | hpos := lt_or_gt_of_ne hne
  · rw [Int.sign_eq_neg_one_of_neg hneg]
    cases config.reverse <;> simp [hneg]
  · rw [Int.sign_eq_one_of_pos hpos]
    cases config.reverse <;> simp [hpos]

/-- Differences of opposite signs drive the axis in opposite directions. -/
theorem axisMove_opposite {config : ConfigRc} {raw : UInt16}
    (hsigns : config.intSpan < 0 ∧ 0 < config.span ∨ 0 < config.intSpan ∧ config.span < 0)
    (hint : |config.intSpan| < 4 * |(raw.toNat : Int) - config.mid|)
    (hspan : |config.span| < 4 * |(raw.toNat : Int) - config.mid|) :
    (axisMove ConfigRc.intSpan config raw = 3 ∧ axisMove ConfigRc.span config raw = -3) ∨
    (axisMove ConfigRc.intSpan config raw = -3 ∧ axisMove ConfigRc.span config raw = 3) := by
  have hint_ne : config.intSpan ≠ 0 := by omega
  have hspan_ne : config.span ≠ 0 := by omega
  have hproduct : config.intSpan * config.span < 0 := mul_neg_iff.mpr hsigns.symm
  have hsquare (x y : Int) :
      x * config.intSpan * y * (x * config.span * y) = (x * y) ^ 2 * (config.intSpan * config.span) := by
    ring
  have hopposite := mul_nonpos_of_nonneg_of_nonpos
    (sq_nonneg (((raw.toNat : Int) - config.mid) * reverseSign config)) hproduct.le
  rw [← hsquare] at hopposite
  obtain ⟨hsign, hmove⟩ | ⟨hsign, hmove⟩ := axisMove_of_lt hint_ne hint
  · obtain ⟨hsign', -⟩ | ⟨-, hmove'⟩ := axisMove_of_lt hspan_ne hspan
    · exact absurd (mul_pos hsign hsign') (not_lt.mpr hopposite)
    · exact .inl ⟨hmove, hmove'⟩
  · obtain ⟨-, hmove'⟩ | ⟨hsign', -⟩ := axisMove_of_lt hspan_ne hspan
    · exact .inr ⟨hmove, hmove'⟩
    · exact absurd (mul_pos_of_neg_of_neg hsign hsign') (not_lt.mpr hopposite)

theorem clamp_axisMove_iff {config : ConfigRc} (hranged : config.Ranged) {low high angle : Int}
    (hangle : low ≤ angle ∧ angle ≤ high) (hroom : low < high) (raw : UInt16) :
    clampTenths low high (angle + axisMove ConfigRc.intSpan config raw) =
        clampTenths low high (angle + axisMove ConfigRc.span config raw) ↔
      AxisKept config low high angle raw := by
  have hne := intSpan_ne_zero hranged
  rw [AxisKept]
  obtain heq | ⟨hle, hsigns⟩ := intSpan_cases hranged
  · have hsame : axisMove ConfigRc.intSpan config raw = axisMove ConfigRc.span config raw := by
      rw [axisMove, axisMove, heq]
    simp [hsame, heq]
  have hdiffer : config.intSpan ≠ config.span := by omega
  by_cases hinner : 4 * |(raw.toNat : Int) - config.mid| ≤ |config.intSpan|
  · rw [axisMove_of_le hinner, axisMove_of_le (hinner.trans hle)]
    simp [hinner]
  by_cases houter : 4 * |(raw.toNat : Int) - config.mid| ≤ |config.span|
  · rw [axisMove_of_le houter]
    simp only [hdiffer, hinner, houter, false_or, true_and]
    obtain ⟨hsign, hmove⟩ | ⟨hsign, hmove⟩ := axisMove_of_lt hne (not_le.mp hinner)
    · rw [hmove, if_pos hsign]
      unfold clampTenths
      omega
    · rw [hmove, if_neg (not_lt.mpr hsign.le)]
      unfold clampTenths
      omega
  · simp only [hdiffer, hinner, houter, false_or, false_and, iff_false]
    obtain ⟨hmove, hmove'⟩ | ⟨hmove, hmove'⟩ := axisMove_opposite hsigns (not_le.mp hinner) (not_le.mp houter)
    all_goals
      rw [hmove, hmove']
      unfold clampTenths
      omega

/-- A message that both automata answer alike: the button puts both angles to 0, or both axes are kept. -/
def GimbalLaw.Kept (table : RcTable) (g : GimbalLaw) (rc : RcChannels) : Prop :=
  rcChanged g.buttonALast rc.chan5Raw = true ∨
    AxisKept (yawConfig table) (-1350) 1350 g.yaw rc.chan1Raw ∧
      AxisKept (pitchConfig table) (-900) 250 g.pitch rc.chan2Raw

instance (table : RcTable) (g : GimbalLaw) (rc : RcChannels) : Decidable (g.Kept table rc) :=
  inferInstanceAs (Decidable (_ ∨ _ ∧ _))

theorem gimbalStep_eq_iff {table : RcTable} (hranged : GimbalRanged table) {g : GimbalLaw} (h : g.InRange)
    (rc : RcChannels) :
    (gimbalStep ConfigRc.intSpan table g rc).2 = (gimbalStep ConfigRc.span table g rc).2 ↔ g.Kept table rc := by
  rw [gimbalStep_eq, gimbalStep_eq, GimbalLaw.Kept]
  cases rcChanged g.buttonALast rc.chan5Raw with
  | true => simp
  | false =>
      simp only [Bool.false_eq_true, if_false, false_or]
      rw [GimbalLaw.steered, GimbalLaw.steered, Prod.mk.injEq, clamp_axisMove_iff hranged.yaw h.1 (by decide),
        clamp_axisMove_iff hranged.pitch h.2 (by decide)]

/-- Both differences are numbers of the type `int` themselves. -/
structure GimbalFits (table : RcTable) : Prop extends GimbalRanged table where
  yawSpan : -2 ^ 31 ≤ (yawConfig table).span ∧ (yawConfig table).span < 2 ^ 31
  pitchSpan : -2 ^ 31 ≤ (pitchConfig table).span ∧ (pitchConfig table).span < 2 ^ 31

theorem intSpan_of_fits {config : ConfigRc} (hfits : -2 ^ 31 ≤ config.span ∧ config.span < 2 ^ 31) :
    config.intSpan = config.span := by
  rw [ConfigRc.span] at hfits ⊢
  rw [ConfigRc.intSpan, Int.bmod_def]
  split <;> omega

theorem gimbalStep_of_fits {table : RcTable} (hfits : GimbalFits table) (g : GimbalLaw) (rc : RcChannels) :
    gimbalStep ConfigRc.intSpan table g rc = gimbalStep ConfigRc.span table g rc := by
  simp only [gimbalStep, axisMove, intSpan_of_fits hfits.yawSpan, intSpan_of_fits hfits.pitchSpan]

/-- The handler's automaton answers as the law does exactly if each message finds the law in a state where both do. -/
theorem gimbalSteps_eq_iff {table : RcTable} (hranged : GimbalRanged table) (rcs : List RcChannels) :
    Transducer.outputs (gimbalStep ConfigRc.intSpan table) {} rcs =
        Transducer.outputs (gimbalStep ConfigRc.span table) {} rcs ↔
      Machine.EachStep (fun g rc => (gimbalStep ConfigRc.span table g rc).1) (GimbalLaw.Kept table) {} rcs := by
  refine Transducer.outputs_eq_iff (I := GimbalLaw.InRange) (fun g rc _ => gimbalStep_inRange _ table g rc)
    (fun g rc h => gimbalStep_eq_iff hranged h rc) (fun g rc _ hanswer => ?_) gimbalStart_inRange rcs
  have hint := gimbalStep_eq ConfigRc.intSpan table g rc
  have hspan := gimbalStep_eq ConfigRc.span table g rc
  rw [hint, hspan] at hanswer ⊢
  dsimp only at hanswer ⊢
  rw [hanswer]

/-! ### Whole runs -/

/-- What the conversions to `int16_t` are given: whole tenths in the range of the gimbal. -/
def Mav.GimbalInRange (m : Mav) : Prop :=
  ∃ yaw pitch : Int, m.camYaw * 10 = yaw ∧ m.camPitch * 10 = pitch ∧
    (-1350 ≤ yaw ∧ yaw ≤ 1350) ∧ -900 ≤ pitch ∧ pitch ≤ 250

theorem gimbalRotations_rcTrace (m : Mav) (hranged : GimbalRanged m.rcChannels) {g : GimbalLaw}
    (h : g.Tracks m.rcStatics) (events : List MavEvent) :
    (m.rcTrace events).map gimbalRotations =
      (Transducer.outputs (gimbalStep ConfigRc.intSpan m.rcChannels) g (rcMessages events)).map ([·]) := by
  rw [Mav.rcTrace_eq, Transducer.map_outputs]
  symm
  apply Transducer.map_outputs_eq (R := GimbalLaw.Tracks)
  · intro g s rc h
    obtain ⟨hnext, hsent⟩ := h.step hranged rc
    exact ⟨hnext, hsent.symm⟩
  · exact h

/-- The handler's angles are those of an automaton in range. -/
def Mav.Steered (table : RcTable) (m : Mav) : Prop :=
  m.rcChannels = table ∧ ∃ g : GimbalLaw, g.Tracks m.rcStatics ∧ g.InRange

theorem Mav.Steered.next {table : RcTable} (hranged : GimbalRanged table) {m : Mav} (h : m.Steered table)
    (e : MavEvent) : (m.next e).Steered table := by
  obtain ⟨htable, g, htracks, hmem⟩ := h
  obtain ⟨htable', hstatics⟩ := m.rcStatics_next e
  refine ⟨htable'.trans htable, ?_⟩
  cases hmessage : rcMessage? e with
  | none =>
      rw [hmessage] at hstatics
      exact ⟨g, hstatics ▸ htracks, hmem⟩
  | some rc =>
      simp only [hmessage, htable] at hstatics
      exact ⟨_, hstatics ▸ (htracks.step hranged rc).1, gimbalStep_inRange ConfigRc.intSpan table g rc⟩

theorem Mav.Steered.inRange {table : RcTable} {m : Mav} (h : m.Steered table) : m.GimbalInRange := by
  obtain ⟨-, g, htracks, hmem⟩ := h
  refine ⟨g.yaw, g.pitch, ?_, ?_, hmem⟩
  · rw [show m.camYaw = (g.yaw : Rat) / 10 from htracks.yaw]
    exact div_mul_cancel₀ _ (by norm_num)
  · rw [show m.camPitch = (g.pitch : Rat) / 10 from htracks.pitch]
    exact div_mul_cancel₀ _ (by norm_num)

theorem singletons_injective {α : Type} : Function.Injective fun xs : List α => xs.map ([·]) :=
  List.map_injective_iff.mpr fun _ _ => List.singleton_inj.mp

/-- The pairs sent to `gimbal_rotate` are the law's in exactly the runs whose messages both automata answer alike. In
every run no conversion leaves its type, turning channel 1 round turns every yaw command round, and the handler
performs what is said here of it. -/
theorem gimbal_follows_law_iff (devs : CameraDevs) (rcChannels : RcTable) (hranged : GimbalRanged rcChannels)
    (events : List MavEvent) :
    let m : Mav := { devs, rcChannels }
    let reversed : Mav := { devs, rcChannels := reverseChannel1 rcChannels }
    ((m.rcTrace events).map gimbalRotations =
        (Transducer.outputs (gimbalStep ConfigRc.span rcChannels) {} (rcMessages events)).map ([·]) ↔
      Machine.EachStep (fun g rc => (gimbalStep ConfigRc.span rcChannels g rc).1) (GimbalLaw.Kept rcChannels) {}
        (rcMessages events)) ∧
    Machine.Always Mav.next Mav.GimbalInRange m events ∧
    (reversed.rcTrace events).map gimbalRotations =
      ((m.rcTrace events).map gimbalRotations).map (·.map mirrorYaw) ∧
    m.rcOutputs events = m.performTrace events (m.rcTrace events) := by
  intro m reversed
  have htracks : ({} : GimbalLaw).Tracks m.rcStatics := ⟨by simp [m, Mav.rcStatics], by simp [m, Mav.rcStatics], rfl⟩
  have hranged' : GimbalRanged reversed.rcChannels :=
    ⟨⟨hranged.yaw.min, hranged.yaw.max, hranged.yaw.ne⟩, ⟨hranged.pitch.min, hranged.pitch.max, hranged.pitch.ne⟩⟩
  have hlaw := gimbalRotations_rcTrace m hranged htracks events
  refine ⟨?_, ?_, ?_, m.rcOutputs_eq events⟩
  · rw [hlaw, singletons_injective.eq_iff]
    exact gimbalSteps_eq_iff hranged _
  · intro pre _
    have hsteered : m.Steered rcChannels := ⟨rfl, {}, htracks, gimbalStart_inRange⟩
    exact (Machine.run_invariant (I := Mav.Steered rcChannels) (fun _ e h => h.next hranged e) hsteered pre).inRange
  · rw [hlaw, gimbalRotations_rcTrace reversed hranged' htracks events, gimbalLaw_mirrored, List.map_map, List.map_map]
    rfl

/-- A transmitter with sticks from 1000 to 2000: right, up and centre. -/
theorem gimbal_follows_law_iff_sticks :
    let rcChannels : RcTable := fun _ => { min := 1000, mid := 1500, max := 2000 }
    let m : Mav := { devs := fun _ => {}, rcChannels }
    let env : GstEnv := ⟨⟨126, 0, 1, 12, 0, 0⟩, 0⟩
    let events : List MavEvent := [.rcChannels env ⟨2000, 1500, 1000, 1500, 1000, 1000⟩,
      .rcChannels env ⟨1500, 1000, 1000, 1500, 1000, 1000⟩, .rcChannels env ⟨1500, 1500, 1000, 1500, 1000, 1000⟩]
    (m.rcTrace events).map gimbalRotations = [[(3, 0)], [(3, -3)], [(3, -3)]] := by
  intro rcChannels m env events
  have hranged : GimbalRanged rcChannels := ⟨⟨by decide, by decide, by decide⟩, ⟨by decide, by decide, by decide⟩⟩
  have hlaw := (gimbal_follows_law_iff (fun _ => {}) rcChannels hranged events).1.mpr
  rw [show rcMessages events = [_, _, _] from rfl] at hlaw
  simp only [Machine.eachStep_cons, Machine.eachStep_nil] at hlaw
  exact (hlaw (by decide)).trans (by decide)

/-- From the least `int` to the greatest: a stick out of the centre moves its axis the other way. -/
theorem widest_span_turns_back :
    let rcChannels : RcTable := fun channel =>
      if channel = 0 then { min := -2147483648, mid := 0, max := 2147483647 }
      else { min := 1000, mid := 1500, max := 2000 }
    let m : Mav := { devs := fun _ => {}, rcChannels }
    let env : GstEnv := ⟨⟨126, 0, 1, 12, 0, 0⟩, 0⟩
    let events : List MavEvent := [.rcChannels env ⟨1500, 1500, 1000, 1500, 1000, 1000⟩]
    (m.rcTrace events).map gimbalRotations = [[(-3, 0)]] ∧
      (Transducer.outputs (gimbalStep ConfigRc.span rcChannels) {} (rcMessages events)).map ([·]) = [[(0, 0)]] := by
  decide +kernel

end MissionServer
