import MissionServer.Config.Devices
import MissionServer.Proof.RcControl

/-!
# The zoom as an automaton

Channel 9 is a spring-loaded switch: letting it go after either end turns the zoom by half a step. The
handler's three statics are the ratio and the class of the last message, and what camera 0 was last told
is always the ratio.
-/

namespace MissionServer

/-! ### The automaton -/

inductive ZoomClass
  | zoomIn
  | zoomOut
  | neutral
  deriving DecidableEq, Repr

def zoomClass (config : ConfigRc) (raw : UInt16) : ZoomClass :=
  if (raw.toNat : Int) ≤ config.min then .zoomIn else if (raw.toNat : Int) ≥ config.max then .zoomOut else .neutral

/-- The ratio in tenths, and the class of the message before. -/
structure ZoomLaw where
  ratio : Int := 10
  last : ZoomClass := .neutral
  deriving DecidableEq, Repr

def clampRatio (ratio : Int) : Int := max 10 (min 40 ratio)

/-- A message, and the ratio it commands: half a step in or out, where the message is the first neutral one
after an end. -/
def zoomStep (config : ConfigRc) (z : ZoomLaw) (rc : RcChannels) : ZoomLaw × Option Int :=
  match zoomClass config rc.chan9Raw, z.last with
  | .neutral, .zoomIn => ({ ratio := clampRatio (z.ratio + 5), last := .neutral }, some (clampRatio (z.ratio + 5)))
  | .neutral, .zoomOut => ({ ratio := clampRatio (z.ratio - 5), last := .neutral }, some (clampRatio (z.ratio - 5)))
  | now, _ => ({ z with last := now }, none)

/-- The integer and decimal part of a ratio, as `camera_zoom` takes them. -/
def zoomParts (ratio : Int) : UInt8 × UInt8 := (UInt8.ofInt (ratio.tdiv 10), UInt8.ofInt (ratio.tmod 10))

/-- The calls of `camera_zoom` that a message makes. -/
def cameraZooms (actions : List RcAction) : List (UInt8 × UInt8) :=
  actions.filterMap fun
    | .zoom zoomInteger zoomDecimal => some (zoomInteger, zoomDecimal)
    | _ => none

/-! ### One message -/

/-- The handler's statics are those of the automaton. -/
structure ZoomLaw.Tracks (z : ZoomLaw) (s : RcStatics) : Prop where
  ratio : s.zoomRatio = z.ratio
  stop : s.zoomStop = decide (z.last ≠ .neutral)
  zoomIn : z.last = .zoomIn → s.zoomDir = 1
  zoomOut : z.last = .zoomOut → s.zoomDir = -1

theorem nextRatio_eq (s : RcStatics) : RcPart.nextRatio s = clampRatio (s.zoomRatio + s.zoomDir * 5) := by
  unfold RcPart.nextRatio clampRatio
  dsimp only
  omega

theorem cameraZooms_rcHandle (rc : RcChannels) (table : RcTable) (s : RcStatics) :
    cameraZooms (rcHandle rc table s).2 = cameraZooms (RcPart.zoom rc table s).2 := by
  rw [rcHandle_eq]
  simp only [cameraZooms, List.filterMap_append]
  cases rcChanged s.buttonALast rc.chan5Raw <;> cases rcChanged s.buttonSnapshotLast rc.chan13Raw <;>
    cases rcChanged s.recordLast rc.chan14Raw <;> simp

theorem zoom_of_class (rc : RcChannels) (table : RcTable) (s : RcStatics) :
    RcPart.zoom rc table s =
      match zoomClass (zoomConfig table) rc.chan9Raw with
      | .zoomIn => ({ s with zoomStop := true, zoomDir := 1 }, [])
      | .zoomOut => ({ s with zoomStop := true, zoomDir := -1 }, [])
      | .neutral =>
          if s.zoomStop then
            ({ s with zoomStop := false, zoomRatio := RcPart.nextRatio s },
              [.zoom (zoomParts (RcPart.nextRatio s)).1 (zoomParts (RcPart.nextRatio s)).2])
          else (s, []) := by
  rw [RcPart.zoom, zoomClass]
  split_ifs <;> rfl

theorem ZoomLaw.Tracks.zoom {z : ZoomLaw} {s : RcStatics} (h : z.Tracks s) (rc : RcChannels) (table : RcTable) :
    (zoomStep (zoomConfig table) z rc).1.Tracks (RcPart.zoom rc table s).1 ∧
      cameraZooms (RcPart.zoom rc table s).2 = ((zoomStep (zoomConfig table) z rc).2.map zoomParts).toList := by
  obtain ⟨hratio, hstop, hin, hout⟩ := h
  rw [zoom_of_class, zoomStep]
  cases zoomClass (zoomConfig table) rc.chan9Raw with
  | zoomIn => exact ⟨⟨hratio, rfl, fun _ => rfl, by simp⟩, rfl⟩
  | zoomOut => exact ⟨⟨hratio, rfl, by simp, fun _ => rfl⟩, rfl⟩
  | neutral =>
      cases hlast : z.last with
      | zoomIn =>
          have hnext : RcPart.nextRatio s = clampRatio (z.ratio + 5) := by
            rw [nextRatio_eq, hratio, hin hlast, one_mul]
          rw [hlast] at hstop
          simp only [hstop, hnext]
          exact ⟨⟨rfl, rfl, by simp, by simp⟩, rfl⟩
      | zoomOut =>
          have hnext : RcPart.nextRatio s = clampRatio (z.ratio - 5) := by
            rw [nextRatio_eq, hratio, hout hlast]
            rfl
          rw [hlast] at hstop
          simp only [hstop, hnext]
          exact ⟨⟨rfl, rfl, by simp, by simp⟩, rfl⟩
      | neutral =>
          rw [hlast] at hstop
          simp only [hstop]
          exact ⟨⟨hratio, hstop, by simp, by simp⟩, rfl⟩

/-- One message: the handler does what the automaton does. -/
theorem ZoomLaw.Tracks.step {z : ZoomLaw} {s : RcStatics} (h : z.Tracks s) (rc : RcChannels) (table : RcTable) :
    (zoomStep (zoomConfig table) z rc).1.Tracks (rcHandle rc table s).1 ∧
      cameraZooms (rcHandle rc table s).2 = ((zoomStep (zoomConfig table) z rc).2.map zoomParts).toList := by
  obtain ⟨⟨hratio, hstop, hin, hout⟩, hzooms⟩ := h.zoom rc table
  rw [cameraZooms_rcHandle, rcHandle_eq]
  exact ⟨⟨hratio, hstop, hin, hout⟩, hzooms⟩

/-! ### What camera 0 was last told -/

/-- The last of the calls, where `first` was called before them. -/
def lastZoom (first : UInt8 × UInt8) (zooms : List (UInt8 × UInt8)) : UInt8 × UInt8 :=
  zooms.foldl (fun _ zoom => zoom) first

/-- A ratio that the handler can reach. -/
structure ReachableRatio (ratio : Int) : Prop where
  low : 10 ≤ ratio
  high : ratio ≤ 40
  grid : 5 ∣ ratio

/-- The parts decode to the ratio and are within the limits of the camera. -/
structure Decodes (zoom : UInt8 × UInt8) (ratio : Int) : Prop where
  value : 10 * (zoom.1.toNat : Int) + zoom.2.toNat = ratio
  integer : siyiCamZoomIntMin ≤ zoom.1 ∧ zoom.1 ≤ siyiCamZoomIntMax
  decimal : siyiCamZoomDecMin ≤ zoom.2 ∧ zoom.2 ≤ siyiCamZoomDecMax

theorem ReachableRatio.cases {ratio : Int} (h : ReachableRatio ratio) :
    ratio ∈ [10, 15, 20, 25, 30, 35, 40] := by
  obtain ⟨hlow, hhigh, half, hhalf⟩ := h
  simp only [List.mem_cons, List.not_mem_nil, or_false]
  omega

theorem decodes_zoomParts {ratio : Int} (h : ReachableRatio ratio) : Decodes (zoomParts ratio) ratio := by
  have hall : ∀ r ∈ [10, 15, 20, 25, 30, 35, 40], 10 * ((zoomParts r).1.toNat : Int) + (zoomParts r).2.toNat = r ∧
      (siyiCamZoomIntMin ≤ (zoomParts r).1 ∧ (zoomParts r).1 ≤ siyiCamZoomIntMax) ∧
      siyiCamZoomDecMin ≤ (zoomParts r).2 ∧ (zoomParts r).2 ≤ siyiCamZoomDecMax := by
    decide
  obtain ⟨hvalue, hinteger, hdecimal⟩ := hall ratio h.cases
  exact ⟨hvalue, hinteger, hdecimal⟩

theorem reachableRatio_clamp {ratio : Int} (hgrid : 5 ∣ ratio) : ReachableRatio (clampRatio ratio) := by
  obtain ⟨half, hhalf⟩ := hgrid
  constructor <;> unfold clampRatio <;> omega

theorem reachableRatio_zoomStep (config : ConfigRc) {z : ZoomLaw} (rc : RcChannels) (h : ReachableRatio z.ratio) :
    ReachableRatio (zoomStep config z rc).1.ratio := by
  rw [zoomStep]
  split
  · exact reachableRatio_clamp (dvd_add h.grid (by decide))
  · exact reachableRatio_clamp (dvd_sub h.grid (by decide))
  · exact h

theorem lastZoom_zoomStep (config : ConfigRc) {z : ZoomLaw} (rc : RcChannels) {first : UInt8 × UInt8}
    (h : ReachableRatio z.ratio) (hfirst : Decodes first z.ratio) :
    Decodes (lastZoom first ((zoomStep config z rc).2.map zoomParts).toList) (zoomStep config z rc).1.ratio := by
  have hnext := reachableRatio_zoomStep config rc h
  revert hnext
  rw [zoomStep]
  split
  · exact decodes_zoomParts
  · exact decodes_zoomParts
  · intro _
    exact hfirst

/-! ### Whole runs -/

theorem cameraZooms_rcTrace (m : Mav) {z : ZoomLaw} (h : z.Tracks m.rcStatics) (events : List MavEvent) :
    (m.rcTrace events).map cameraZooms =
      (Transducer.outputs (zoomStep (zoomConfig m.rcChannels)) z (rcMessages events)).map
        fun ratio => (ratio.map zoomParts).toList := by
  rw [Mav.rcTrace_eq, Transducer.map_outputs]
  symm
  apply Transducer.map_outputs_eq (R := ZoomLaw.Tracks)
  · intro z s rc h
    obtain ⟨hnext, hzooms⟩ := h.step rc m.rcChannels
    exact ⟨hnext, hzooms.symm⟩
  · exact h

theorem lastZoom_append (first : UInt8 × UInt8) (zooms zooms' : List (UInt8 × UInt8)) :
    lastZoom first (zooms ++ zooms') = lastZoom (lastZoom first zooms) zooms' := List.foldl_append

/-- Along a run the last command decodes to the ratio. -/
theorem lastZoom_run {m : Mav} {z : ZoomLaw} (h : z.Tracks m.rcStatics) (hratio : ReachableRatio z.ratio)
    {first : UInt8 × UInt8} (hfirst : Decodes first z.ratio) (events : List MavEvent) :
    ReachableRatio (Machine.run Mav.next m events).zoomRatio ∧
      Decodes (lastZoom first ((m.rcTrace events).flatMap cameraZooms)) (Machine.run Mav.next m events).zoomRatio := by
  induction events generalizing m z first with
  | nil =>
      have heq : m.zoomRatio = z.ratio := h.ratio
      rw [Machine.run_nil, heq]
      exact ⟨hratio, hfirst⟩
  | cons e events ih =>
      obtain ⟨-, hstatics⟩ := m.rcStatics_next e
      rw [Machine.run_cons, Mav.rcTrace_cons, List.flatMap_append, lastZoom_append]
      cases hmessage : rcMessage? e with
      | none =>
          rw [hmessage] at hstatics
          exact ih (hstatics ▸ h) hratio hfirst
      | some rc =>
          rw [hmessage] at hstatics
          obtain ⟨hnext, hzooms⟩ := h.step rc m.rcChannels
          have hlast := lastZoom_zoomStep (zoomConfig m.rcChannels) rc hratio hfirst
          rw [← hzooms] at hlast
          have hflat : ((some (rcHandle rc m.rcChannels m.rcStatics).2).toList.flatMap cameraZooms) =
              cameraZooms (rcHandle rc m.rcChannels m.rcStatics).2 := List.flatMap_singleton _ _
          rw [Option.map_some, hflat]
          exact ih (hstatics ▸ hnext) (reachableRatio_zoomStep _ rc hratio) hlast

/-- The calls of `camera_zoom` are those of the automaton, and after every message camera 0 was last told
the ratio, within its limits. The handler performs these calls. -/
theorem zoom_follows_law (devs : CameraDevs) (rcChannels : RcTable) (events : List MavEvent) :
    let m : Mav := { devs, rcChannels }
    let m' := Machine.run Mav.next m events
    (m.rcTrace events).map cameraZooms =
        (Transducer.outputs (zoomStep (zoomConfig rcChannels)) {} (rcMessages events)).map
          (fun ratio => (ratio.map zoomParts).toList) ∧
      ReachableRatio m'.zoomRatio ∧
      Decodes (lastZoom siyiInitZoom ((m.rcTrace events).flatMap cameraZooms)) m'.zoomRatio ∧
      m.rcOutputs events = m.performTrace events (m.rcTrace events) := by
  intro m m'
  have htracks : ({} : ZoomLaw).Tracks m.rcStatics := ⟨rfl, rfl, by simp, by simp⟩
  have hinit : ReachableRatio ({} : ZoomLaw).ratio := ⟨by decide, by decide, by decide⟩
  have hfirst : Decodes siyiInitZoom ({} : ZoomLaw).ratio := decodes_zoomParts hinit
  obtain ⟨hreach, hlast⟩ := lastZoom_run htracks hinit hfirst events
  exact ⟨cameraZooms_rcTrace m htracks events, hreach, hlast, m.rcOutputs_eq events⟩

end MissionServer
