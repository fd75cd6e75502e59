import PacPrism.Console.System
import PacPrism.Foundations.Calendar
import PacPrism.Foundations.Layout

/-!
# Console/HttpDates — broken-down time, its text, and time zones

    seconds ── localtime ──► Tm ── strftime ──► text ── get_time ──► Tm ── mktime ──► seconds

`TimeLibrary.Follows` says what the standards promise of the four functions in a time zone, and
`zoneLibrary` is a library that keeps the promise.  The zone comes in twice: the first function adds
the offset of the moment it is given, the last one takes off one that it has to find from the fields
of a standard time, because nothing in between tells it whether daylight saving was in effect.
-/

namespace PacPrism

open Calendar

namespace Tm

/-- Seconds as broken-down time, without an offset. -/
def ofSeconds (t : Int) : Tm where
  sec := t % 60
  min := t / 60 % 60
  hour := t / 3600 % 24
  mday := (Date.ofDays (t / 86400)).day
  mon := (Date.ofDays (t / 86400)).month - 1
  year := (Date.ofDays (t / 86400)).year - 1900
  wday := (t / 86400 + 4) % 7
  yday := t / 86400 - Date.toDays ⟨(Date.ofDays (t / 86400)).year, 1, 1⟩

/-- The seconds of a broken-down time, without an offset.  The day of the week and that of the year
do not matter, nor does the daylight saving flag. -/
def toSeconds (tm : Tm) : Int :=
  86400 * Date.toDays ⟨tm.year + 1900, tm.mon + 1, tm.mday⟩ + 3600 * tm.hour + 60 * tm.min + tm.sec

/-- The fields that say which moment it is. -/
def moment (tm : Tm) : Tm := { tm with wday := 0, yday := 0, isdst := 0 }

/-- The fields are in their ranges, and the year is one of the epoch (or the one before it, which
local time may show at its start) with four digits. -/
structure InRange (tm : Tm) : Prop where
  year : 1969 ≤ tm.year + 1900 ∧ tm.year + 1900 < 10000
  mon : 0 ≤ tm.mon ∧ tm.mon < 12
  mday : 1 ≤ tm.mday ∧ tm.mday ≤ 31
  hour : 0 ≤ tm.hour ∧ tm.hour < 24
  min : 0 ≤ tm.min ∧ tm.min < 60
  sec : 0 ≤ tm.sec ∧ tm.sec ≤ 60

/-- Broken-down time that has a text. -/
structure Writable (tm : Tm) : Prop extends InRange tm where
  wday : 0 ≤ tm.wday ∧ tm.wday < 7

theorem toSeconds_moment (tm : Tm) : tm.moment.toSeconds = tm.toSeconds := rfl

theorem inRange_moment_iff {tm : Tm} : tm.moment.InRange ↔ tm.InRange :=
  ⟨fun h => ⟨h.year, h.mon, h.mday, h.hour, h.min, h.sec⟩,
    fun h => ⟨h.year, h.mon, h.mday, h.hour, h.min, h.sec⟩⟩

/-- **Seconds are found again** from the fields they are broken down into. -/
theorem toSeconds_ofSeconds (t : Int) : (ofSeconds t).toSeconds = t := by
  have hdays := Date.toDays_ofDays (t / 86400)
  rw [toSeconds, ofSeconds]
  dsimp only
  rw [Int.sub_add_cancel, Int.sub_add_cancel, hdays]
  omega

/-- From a little before 1970 to the year 2262, all fields can be written. -/
theorem writable_ofSeconds {t : Int} (hlow : -90000 < t) (hhigh : t < 9223372037 + 90000) :
    (ofSeconds t).Writable := by
  obtain ⟨hmon, hmon', hday⟩ := Date.ofDays_bounds (t / 86400)
  have hyear := Date.ofDays_year_of_le (n := t / 86400) (by omega)
  have hyear' := (Date.ofDays_year_bounds (t / 86400)).2
  rw [Date.epoch] at hyear'
  refine ⟨⟨?_, ?_, hday, ?_, ?_, ?_⟩, ?_⟩ <;> dsimp only [ofSeconds] <;> omega

end Tm

/-! ## The text -/

/-- The days of the week, in the C locale. -/
def dayNames : List Bytes :=
  [lit "Sun", lit "Mon", lit "Tue", lit "Wed", lit "Thu", lit "Fri", lit "Sat"]

/-- The months. -/
def monthNames : List Bytes :=
  [lit "Jan", lit "Feb", lit "Mar", lit "Apr", lit "May", lit "Jun", lit "Jul", lit "Aug",
    lit "Sep", lit "Oct", lit "Nov", lit "Dec"]

/-- `"%a, %d %b %Y %H:%M:%S GMT"`. -/
def httpDateFormat : Layout Tm :=
  [.name dayNames Tm.wday fun tm i => { tm with wday := i },
    .literal (lit ", "), .number 2 Tm.mday fun tm i => { tm with mday := i },
    .literal (lit " "), .name monthNames Tm.mon fun tm i => { tm with mon := i },
    .literal (lit " "), .number 4 (·.year + 1900) fun tm i => { tm with year := i - 1900 },
    .literal (lit " "), .number 2 Tm.hour fun tm i => { tm with hour := i },
    .literal (lit ":"), .number 2 Tm.min fun tm i => { tm with min := i },
    .literal (lit ":"), .number 2 Tm.sec fun tm i => { tm with sec := i },
    .literal (lit " GMT")]

namespace Tm

/-- The HTTP date of a broken-down time. -/
def httpDate (tm : Tm) : Bytes := httpDateFormat.render tm

example : (ofSeconds 1445412480).httpDate = lit "Wed, 21 Oct 2015 07:28:00 GMT" := by decide

theorem clear_httpDateFormat : ∀ p ∈ httpDateFormat, p.Clear := by decide

theorem Writable.fits {tm : Tm} (h : tm.Writable) : ∀ p ∈ httpDateFormat, p.Fits tm := by
  obtain ⟨⟨hyear, hmon, hmday, hhour, hmin, hsec⟩, hwday⟩ := h
  simp only [httpDateFormat, List.forall_mem_cons, Piece.Fits, dayNames, monthNames,
    List.length_cons, List.length_nil]
  refine ⟨by omega, trivial, by omega, trivial, by omega, trivial, by omega, trivial, by omega,
    trivial, by omega, trivial, by omega, trivial, fun p hp => absurd hp List.not_mem_nil⟩

/-- **An HTTP date is read back** into the fields it mentions. -/
theorem Writable.read_httpDate {tm : Tm} (h : tm.Writable) (target : Tm) :
    httpDateFormat.read target tm.httpDate
      = some ({ tm with yday := target.yday, isdst := target.isdst }, []) := by
  have hread := Layout.read_render clear_httpDateFormat h.fits target []
  rw [List.append_nil] at hread
  rw [httpDate, hread]
  simp [httpDateFormat, Layout.assign, Piece.assign]

theorem httpDate_ne_nil (tm : Tm) : tm.httpDate ≠ [] := fun h => by
  have hliteral := List.flatMap_eq_nil_iff.1 h (.literal (lit " GMT")) (by simp [httpDateFormat])
  cases hliteral

end Tm

/-! ## Time zones -/

/-- The time zone of the server, with all its history: how far local time is ahead of UTC at each
moment, whether daylight saving is in effect, and the offset that `mktime` takes off a broken-down
standard time.  No offset of local time is more than 24:59:59. -/
structure Zone where
  offset : Int → Int
  isdst : Int → Bool
  taken : Tm → Int
  bounded : ∀ t, -90000 < offset t ∧ offset t < 90000

namespace Zone

/-- Local time. -/
def localtime (zone : Zone) (t : Int) : Tm :=
  { Tm.ofSeconds (t + zone.offset t) with isdst := if zone.isdst t then 1 else 0 }

/-- The fields of a moment, taken for standard time, are those of the moment: `mktime` takes off
them what the moment is ahead of UTC. -/
def ReadsBack (zone : Zone) (t : Int) : Prop :=
  zone.taken (zone.localtime t).moment = zone.offset t

instance (zone : Zone) (t : Int) : Decidable (zone.ReadsBack t) :=
  inferInstanceAs (Decidable (_ = _))

/-- A zone whose standard time has never changed, and what daylight saving adds to it at each
moment. -/
def saving (std : Int) (save : Int → Int)
    (bounded : ∀ t, -90000 < std + save t ∧ std + save t < 90000) : Zone where
  offset t := std + save t
  isdst t := save t ≠ 0
  taken _ := std
  bounded := bounded

/-- A zone without daylight saving. -/
def fixed (std : Int) (h : -90000 < std ∧ std < 90000) : Zone :=
  saving std (fun _ => 0) fun _ => by rwa [Int.add_zero]

/-- Such a zone reads back the moments on which daylight saving is not in effect. -/
theorem readsBack_saving_iff {std : Int} {save : Int → Int}
    (bounded : ∀ t, -90000 < std + save t ∧ std + save t < 90000) (t : Int) :
    (saving std save bounded).ReadsBack t ↔ save t = 0 := by
  change std = std + save t ↔ _
  omega

/-- Moscow in 2014: on 26 October standard time went back by an hour, from four ahead of UTC to
three.  `mktime` takes the hour that local time has shown twice for the second one. -/
def moscow : Zone where
  offset t := if t < 1414274400 then 14400 else 10800
  isdst _ := false
  taken tm := if tm.toSeconds < 1414274400 + 10800 then 14400 else 10800
  bounded t := by split_ifs <;> decide

-- Without daylight saving, a moment is not read back either if standard time has shown it twice.
example : ¬ moscow.ReadsBack 1414272600 := by decide

end Zone

/-- **The time functions of the libraries, in a time zone.**  `get_time` fills in the fields of the
text and leaves `tm_isdst` as it finds it; `mktime` ignores the day of the week and of the year.
Only times that `system_clock` can hold are broken down. -/
structure TimeLibrary.Follows (lib : TimeLibrary) (zone : Zone) : Prop where
  localtime : ∀ t, 0 ≤ t → t < 9223372037 → lib.localtime t = zone.localtime t
  strftime : ∀ tm : Tm, tm.Writable → lib.strftime tm = tm.httpDate
  getTime : ∀ tm : Tm, tm.Writable →
    ∃ tm', lib.getTime {} tm.httpDate = some tm' ∧ tm'.moment = tm.moment ∧ tm'.isdst = 0
  mktime : ∀ tm : Tm, tm.InRange → tm.isdst = 0 →
    lib.mktime tm = tm.toSeconds - zone.taken tm.moment

/-- A library that follows a zone. -/
def zoneLibrary (zone : Zone) : TimeLibrary where
  localtime := zone.localtime
  strftime := Tm.httpDate
  getTime tm s := (httpDateFormat.read tm s).map Prod.fst
  mktime tm := tm.toSeconds - zone.taken { tm with wday := 0, yday := 0 }

theorem zoneLibrary_follows (zone : Zone) : (zoneLibrary zone).Follows zone where
  localtime _ _ _ := rfl
  strftime _ _ := rfl
  getTime tm h := by
    refine ⟨{ tm with yday := 0, isdst := 0 }, ?_, rfl, rfl⟩
    rw [zoneLibrary]
    dsimp only
    rw [h.read_httpDate]
    rfl
  mktime tm _ h := by
    have hmoment : tm.moment = { tm with wday := 0, yday := 0 } := by rw [Tm.moment, ← h]
    rw [hmoment]
    rfl

/-- Local time is the fields of the moment that the zone is ahead. -/
theorem Zone.toSeconds_localtime (zone : Zone) (t : Int) :
    (zone.localtime t).toSeconds = t + zone.offset t := by
  have hfields : (zone.localtime t).toSeconds = (Tm.ofSeconds (t + zone.offset t)).toSeconds := rfl
  rw [hfields, Tm.toSeconds_ofSeconds]

theorem Zone.writable_localtime (zone : Zone) {t : Int} (hlow : 0 ≤ t) (hhigh : t < 9223372037) :
    (zone.localtime t).Writable := by
  have hbounds := zone.bounded t
  obtain ⟨⟨hyear, hmon, hmday, hhour, hmin, hsec⟩, hwday⟩ :=
    Tm.writable_ofSeconds (t := t + zone.offset t) (by omega) (by omega)
  exact ⟨⟨hyear, hmon, hmday, hhour, hmin, hsec⟩, hwday⟩

end PacPrism
