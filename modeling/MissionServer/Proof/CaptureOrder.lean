import MissionServer.Lib.Decimal
import MissionServer.Proof.Captures

/-!
# The order of captures

A time stamp is six numbers of fixed widths, the largest unit first. In a directory the images, and the videos,
are therefore in the order of the local times they were taken at.
-/

namespace MissionServer

/-- What `localtime` fills in, in a year of four digits. -/
structure Tm.Calendar (timeinfo : Tm) : Prop where
  year : 0 ≤ 1900 + timeinfo.tmYear ∧ 1900 + timeinfo.tmYear ≤ 9999
  mon : 0 ≤ timeinfo.tmMon ∧ timeinfo.tmMon ≤ 11
  mday : 1 ≤ timeinfo.tmMday ∧ timeinfo.tmMday ≤ 31
  hour : 0 ≤ timeinfo.tmHour ∧ timeinfo.tmHour ≤ 23
  min : 0 ≤ timeinfo.tmMin ∧ timeinfo.tmMin ≤ 59
  sec : 0 ≤ timeinfo.tmSec ∧ timeinfo.tmSec ≤ 60

/-- A local time from the year down to the second; lists are compared at the first entry that differs. -/
def Tm.units (timeinfo : Tm) : List Int :=
  [timeinfo.tmYear, timeinfo.tmMon, timeinfo.tmMday, timeinfo.tmHour, timeinfo.tmMin, timeinfo.tmSec]

/-- The fields of a time stamp with their widths. -/
def Tm.stamp (timeinfo : Tm) : List (Nat × Nat) :=
  [(4, (1900 + timeinfo.tmYear).toNat), (2, (1 + timeinfo.tmMon).toNat), (2, timeinfo.tmMday.toNat),
   (2, timeinfo.tmHour.toNat), (2, timeinfo.tmMin.toNat), (2, timeinfo.tmSec.toNat)]

theorem toList_padInt {width : Nat} {n : Int} (hn : 0 ≤ n) :
    (padInt width n).toList = Decimal.padded width n.toNat := by
  have habs : n.natAbs = n.toNat := by
    omega
  rw [padInt, if_neg (not_lt.mpr hn), String.toList_ofList, habs, Nat.toString_eq_repr, Nat.toList_repr, Decimal.padded]

theorem toList_generateTimestamp {timeinfo : Tm} (h : timeinfo.Calendar) :
    (generateTimestamp timeinfo).toList = Decimal.fields timeinfo.stamp := by
  have hmon : 0 ≤ 1 + timeinfo.tmMon := by
    have hlow := h.mon.1
    omega
  have hmday : 0 ≤ timeinfo.tmMday := by
    have hlow := h.mday.1
    omega
  simp only [generateTimestamp, String.toList_append, toList_padInt h.year.1, toList_padInt hmon, toList_padInt hmday,
    toList_padInt h.hour.1, toList_padInt h.min.1, toList_padInt h.sec.1, Tm.stamp, Decimal.fields, List.append_nil,
    List.append_assoc]

theorem fits_stamp {timeinfo : Tm} (h : timeinfo.Calendar) : Decimal.Fits timeinfo.stamp := by
  obtain ⟨hyear, hmon, hmday, hhour, hmin, hsec⟩ := h
  intro f hf
  simp only [Tm.stamp, List.mem_cons, List.not_mem_nil, or_false] at hf
  obtain rfl | rfl | rfl | rfl | rfl | rfl := hf
  all_goals
    refine ⟨Nat.zero_lt_succ _, ?_⟩
    dsimp only
    omega

theorem stamp_lt_iff {timeinfo timeinfo' : Tm} (h : timeinfo.Calendar) (h' : timeinfo'.Calendar) :
    timeinfo.stamp.map (·.2) < timeinfo'.stamp.map (·.2) ↔ timeinfo.units < timeinfo'.units := by
  obtain ⟨hyear, hmon, hmday, hhour, hmin, hsec⟩ := h
  obtain ⟨hyear', hmon', hmday', hhour', hmin', hsec'⟩ := h'
  simp only [Tm.stamp, Tm.units, List.map_cons, List.map_nil, List.cons_lt_cons_iff, List.not_lt_nil, and_false,
    or_false]
  omega

theorem generateTimestamp_lt_iff {timeinfo timeinfo' : Tm} (h : timeinfo.Calendar) (h' : timeinfo'.Calendar) :
    (generateTimestamp timeinfo).toList < (generateTimestamp timeinfo').toList ↔ timeinfo.units < timeinfo'.units := by
  rw [toList_generateTimestamp h, toList_generateTimestamp h', Decimal.fields_lt_iff (fits_stamp h) (fits_stamp h') rfl,
    stamp_lt_iff h h']

theorem length_generateTimestamp {timeinfo : Tm} (h : timeinfo.Calendar) :
    (generateTimestamp timeinfo).toList.length = 14 := by
  rw [toList_generateTimestamp h, Decimal.length_fields (fits_stamp h)]
  rfl

theorem utf8ByteSize_generateTimestamp {timeinfo : Tm} (h : timeinfo.Calendar) :
    (generateTimestamp timeinfo).utf8ByteSize = 14 := by
  have hdigits : ∀ c ∈ (generateTimestamp timeinfo).toList, c.isDigit := by
    rw [toList_generateTimestamp h]
    exact Decimal.isDigit_fields
  have hsize := Decimal.utf8ByteSize_of_isDigit hdigits
  rwa [String.ofList_toList, length_generateTimestamp h] at hsize

theorem utf8ByteSize_capturePath (savePath : String) (kind : CaptureKind) {timeinfo : Tm} (h : timeinfo.Calendar) :
    (capturePath savePath kind timeinfo).utf8ByteSize = savePath.utf8ByteSize + 19 := by
  have hslash : "/".utf8ByteSize = 1 := by decide
  have hextension : kind.extension.utf8ByteSize = 4 := by cases kind <;> decide
  rw [capturePath, String.utf8ByteSize_append, String.utf8ByteSize_append, String.utf8ByteSize_append, hslash,
    utf8ByteSize_generateTimestamp h, hextension]

theorem capturePath_lt_iff (savePath : String) (kind : CaptureKind) {timeinfo timeinfo' : Tm} (h : timeinfo.Calendar)
    (h' : timeinfo'.Calendar) :
    capturePath savePath kind timeinfo < capturePath savePath kind timeinfo' ↔ timeinfo.units < timeinfo'.units := by
  have hlen : (generateTimestamp timeinfo).toList.length = (generateTimestamp timeinfo').toList.length := by
    rw [length_generateTimestamp h, length_generateTimestamp h']
  rw [String.lt_iff, capturePath, capturePath]
  simp only [String.toList_append, List.append_assoc]
  rw [Decimal.append_lt_append_iff rfl, Decimal.append_lt_append_iff rfl, Decimal.append_lt_append_iff hlen,
    generateTimestamp_lt_iff h h']
  simp only [List.lt_irrefl, and_false, or_false, false_or, true_and]

theorem Cameras.Named.rawtime_mem {localtime : Int → Tm} {savePath : String} {s : Cameras}
    (h : s.Named localtime savePath) {es : List CameraEvent} {c : Capture}
    (hc : c ∈ (Machine.run (Cameras.next localtime) s es).captures) :
    c ∈ s.captures ∨ ∃ e ∈ es, e.rawtime = c.rawtime := by
  induction es generalizing s with
  | nil => exact .inl hc
  | cons e es ih =>
      obtain hc | ⟨e', he', htime⟩ := ih (h.next e) hc
      · rw [h.captures_next e] at hc
        obtain hc | hc := List.mem_append.mp hc
        · exact .inl hc
        · obtain ⟨kind, -, rfl⟩ := Option.map_eq_some_iff.mp (Option.mem_toList.mp hc)
          exact .inr ⟨e, List.mem_cons_self, rfl⟩
      · exact .inr ⟨e', List.mem_cons_of_mem e he', htime⟩

/-- Whatever the cameras do, at whatever times in years of four digits: a directory listing has the images, and the
videos, in the order of the local times they were taken at. It has them in the order they were taken exactly where the
local time never went back between two of them. Where `save_path` leaves 19 bytes of `PATH_MAX` and one to end with,
every name was printed within its buffers. -/
theorem captures_listed_by_time (localtime : Int → Tm) (savePath : String) (configs : Fin cameraNumMax → RtspConfig)
    (es : List CameraEvent) (hlocaltime : ∀ e ∈ es, (localtime e.rawtime).Calendar) (kind : CaptureKind) :
    let captures := (Machine.run (Cameras.next localtime) (Cameras.start savePath configs) es).captures.filter
      (·.kind = kind)
    (∀ c ∈ captures, ∀ c' ∈ captures,
      (c.path < c'.path ↔ (localtime c.rawtime).units < (localtime c'.rawtime).units)) ∧
    (captures.Pairwise (fun c c' => ¬ c'.path < c.path) ↔
      captures.Pairwise (fun c c' => ¬ (localtime c'.rawtime).units < (localtime c.rawtime).units)) ∧
    (savePath.utf8ByteSize + 19 < pathMax → ∀ c ∈ captures, c.InBuffers localtime) := by
  intro captures
  have hstart := @Cameras.named_start localtime savePath configs
  have hnamed := Machine.run_invariant (fun _ e h => h.next e) hstart es
  have hcalendar : ∀ c ∈ captures, c.kind = kind ∧ c.path = capturePath savePath kind (localtime c.rawtime) ∧
      (localtime c.rawtime).Calendar := by
    intro c hc
    obtain ⟨hmem, hkind⟩ := List.mem_filter.mp hc
    have hpath := hnamed.path c hmem
    rw [of_decide_eq_true hkind] at hpath
    refine ⟨of_decide_eq_true hkind, hpath, ?_⟩
    obtain hold | ⟨e, he, htime⟩ := hstart.rawtime_mem hmem
    · exact absurd hold List.not_mem_nil
    · rw [← htime]
      exact hlocaltime e he
  have horder : ∀ c ∈ captures, ∀ c' ∈ captures,
      (c.path < c'.path ↔ (localtime c.rawtime).units < (localtime c'.rawtime).units) := by
    intro c hc c' hc'
    obtain ⟨-, hpath, htime⟩ := hcalendar c hc
    obtain ⟨-, hpath', htime'⟩ := hcalendar c' hc'
    rw [hpath, hpath']
    exact capturePath_lt_iff savePath kind htime htime'
  refine ⟨horder, List.Pairwise.iff_of_mem ?_, fun hroom c hc => ?_⟩
  · intro c c' hc hc'
    rw [horder c' hc' c hc]
  · obtain ⟨-, hpath, htime⟩ := hcalendar c hc
    constructor
    · rw [utf8ByteSize_generateTimestamp htime]
      decide
    · rw [hpath, utf8ByteSize_capturePath savePath kind htime]
      exact hroom

/-- Two snapshots, nine seconds apart, with the clock at noon UTC of the first of June 2024. -/
theorem captures_listed_by_time_snapshots :
    let localtime : Int → Tm := fun t => ⟨124, 5, 1, 12, (t - 1717243200) / 60, (t - 1717243200) % 60⟩
    let configs : Fin cameraNumMax → RtspConfig := fun _ => ⟨"", "h264", "rb5", "rtsp://camera", "NV12", 1280, 720⟩
    let es : List CameraEvent := [⟨0, 1717243201, .ready⟩, ⟨0, 1717243201, .saveImage⟩,
      ⟨0, 1717243201, .newSample true⟩, ⟨0, 1717243209, .saveImage⟩, ⟨0, 1717243210, .newSample true⟩]
    let captures := (Machine.run (Cameras.next localtime) (Cameras.start "/home" configs) es).captures.filter
      (·.kind = .image)
    captures.Pairwise fun c c' => ¬ c'.path < c.path := by
  intro localtime configs es captures
  have hnoon (t : Int) (ht : 1717243200 ≤ t ∧ t < 1717246800) : (localtime t).Calendar := by
    refine ⟨?_, ?_, ?_, ?_, ?_, ?_⟩
    all_goals
      show _ ≤ _ ∧ _ ≤ _
      dsimp only [localtime]
      omega
  have htimes : ∀ e ∈ es, 1717243200 ≤ e.rawtime ∧ e.rawtime < 1717246800 := by decide
  have hcalendar : ∀ e ∈ es, (localtime e.rawtime).Calendar := fun e he => hnoon e.rawtime (htimes e he)
  have hlisted := captures_listed_by_time localtime "/home" configs es hcalendar .image
  exact hlisted.2.1.mpr (by decide +kernel)

end MissionServer
