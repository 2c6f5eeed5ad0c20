import SelectCompiler.Proofs.Calendar.Reading
import SelectCompiler.Proofs.Calendar.Spelling
import SelectCompiler.Proofs.Postgres.Integer

/-!
Dates and timestamps as parameters. Whichever spelling a text has, and whatever blanks are around
it, the same value is bound; a text whose numbers are out of range is refused. This holds for
whatever readers are lawful.
-/

namespace SelectCompiler

namespace BindValue

open Calendar

variable {readers : Readers} {fields : Fields} {lead trail : String}

theorem ofJson?_date_write (lawful : readers.Lawful) (writable : fields.Writable)
    (spelling : Date.Spelling) (leading : ∀ c ∈ lead.toList, Text.isBlank c = true)
    (trailing : ∀ c ∈ trail.toList, Text.isBlank c = true) :
    ofJson? readers .date (.string (lead ++ spelling.write fields ++ trail)) =
      fields.date?.map .date := by
  have trimmed : Text.trim (lead ++ spelling.write fields ++ trail) = spelling.write fields := by
    rw [Text.trim_padded leading trailing, Text.trim_of_visible (spelling.visible_write fields)]
  simp only [ofJson?, text?, trimmed, Option.bind_some, Date.ofText?_write lawful writable]

theorem ofJson?_timestamp_write (lawful : readers.Lawful) (writable : fields.Writable)
    {spelling : Timestamp.Spelling} (digits : spelling.Writable)
    (leading : ∀ c ∈ lead.toList, Text.isBlank c = true)
    (trailing : ∀ c ∈ trail.toList, Text.isBlank c = true) :
    ofJson? readers .timestamp (.string (lead ++ spelling.write fields ++ trail)) =
      (fields.timestamp?.bind (spelling.instant? readers)).map .timestamp := by
  have trimmed : Text.trim (lead ++ spelling.write fields ++ trail) = spelling.write fields := by
    rw [Text.trim_padded leading trailing, spelling.trim_write fields]
  simp only [ofJson?, text?, trimmed, Option.bind_some,
    Timestamp.ofText?_write lawful writable digits]

theorem ofJson?_date_of_outside (lawful : readers.Lawful) (writable : fields.Writable)
    (spelling : Date.Spelling) (outside : ¬fields.DateInRange)
    (leading : ∀ c ∈ lead.toList, Text.isBlank c = true)
    (trailing : ∀ c ∈ trail.toList, Text.isBlank c = true) :
    ofJson? readers .date (.string (lead ++ spelling.write fields ++ trail)) = none := by
  rw [ofJson?_date_write lawful writable spelling leading trailing, Fields.date?_eq_none outside,
    Option.map_none]

theorem ofJson?_timestamp_of_outside (lawful : readers.Lawful) (writable : fields.Writable)
    {spelling : Timestamp.Spelling} (digits : spelling.Writable)
    (outside : ¬fields.DateInRange ∨ ¬fields.TimeInRange ∨ spelling.ahead? = none)
    (leading : ∀ c ∈ lead.toList, Text.isBlank c = true)
    (trailing : ∀ c ∈ trail.toList, Text.isBlank c = true) :
    ofJson? readers .timestamp (.string (lead ++ spelling.write fields ++ trail)) = none := by
  have unmade : fields.timestamp? = none ∨ spelling.ahead? = none := by
    rcases outside with date | time | unmoved
    · exact .inl (Fields.timestamp?_eq_none (mt And.left date))
    · exact .inl (Fields.timestamp?_eq_none (mt And.right time))
    · exact .inr unmoved
  rw [ofJson?_timestamp_write lawful writable digits leading trailing, Option.map_eq_none_iff,
    Option.bind_eq_none_iff]
  intro clock made
  rcases unmade with untimed | unmoved
  · rw [untimed] at made
    contradiction
  · exact Timestamp.Spelling.instant?_eq_none clock unmoved

/-- A timestamp is bound as the one that is as many minutes earlier as the clock of its spelling is
ahead, and there is only one. -/
theorem exists_ofJson?_timestamp (lawful : readers.Lawful) {moment : Timestamp}
    (year : 0 ≤ moment.date.year ∧ moment.date.year ≤ 9999) (whole : moment.time.nanosecond = 0)
    (spelling : Timestamp.Spelling) (digits : spelling.Writable) {minutes : Int}
    (ahead : spelling.ahead? = some minutes)
    (leading : ∀ c ∈ lead.toList, Text.isBlank c = true)
    (trailing : ∀ c ∈ trail.toList, Text.isBlank c = true) :
    ∃ instant,
      ofJson? readers .timestamp (.string (lead ++ spelling.write moment.fields ++ trail)) =
        some (.timestamp instant) ∧
      ∀ other : Timestamp, other.Precedes moment minutes ↔ other = instant := by
  obtain ⟨instant, found, precedes⟩ := Timestamp.Spelling.exists_instant? lawful year ahead
  have writable := Timestamp.writable_fields year whole
  refine ⟨instant, ?_, ?_⟩
  · rw [ofJson?_timestamp_write lawful writable digits leading trailing, moment.timestamp?_fields,
      Option.bind_some, found, Option.map_some]
  · intro other
    refine ⟨precedes.unique, ?_⟩
    rintro rfl
    exact precedes

/-- A date is bound as itself from both of its spellings, and a timestamp of whole seconds from all
of its own; that of a clock ahead of universal time or behind it is bound as the universal time
which is as many minutes earlier or later as the spelling says. Numbers out of range are refused. -/
theorem ofParameter_spelled (lawful : readers.Lawful) (index : Nat)
    (leading : ∀ c ∈ lead.toList, Text.isBlank c = true)
    (trailing : ∀ c ∈ trail.toList, Text.isBlank c = true) :
    let bound := fun hint text => ofParameter ⟨index, .string (lead ++ text ++ trail), hint⟩ readers
    let Refused := fun hint text => ∃ fault,
      bound hint text = .error fault ∧ fault.kind = .parameterType
    (∀ (date : Date) (spelling : Date.Spelling), 0 ≤ date.year ∧ date.year ≤ 9999 →
      bound .date (spelling.write date.fields) = .ok (.date date)) ∧
    (∀ moment : Timestamp, 0 ≤ moment.date.year ∧ moment.date.year ≤ 9999 →
      moment.time.nanosecond = 0 →
      (∀ spelling ∈ [Timestamp.Spelling.spaced, .joined, .plain, .zoned .universal],
        bound .timestamp (spelling.write moment.fields) = .ok (.timestamp moment)) ∧
      ∀ hours minutes : Nat, hours < 24 → minutes < 60 →
        let ahead := Timestamp.Spelling.zoned (.ahead hours minutes)
        let behind := Timestamp.Spelling.zoned (.behind hours minutes)
        (∃ earlier, bound .timestamp (ahead.write moment.fields) = .ok (.timestamp earlier) ∧
          ∀ other : Timestamp,
            other.Precedes moment (hours * 60 + minutes : Nat) ↔ other = earlier) ∧
        ∃ later, bound .timestamp (behind.write moment.fields) = .ok (.timestamp later) ∧
          ∀ other : Timestamp,
            other.Precedes moment (-(hours * 60 + minutes : Nat)) ↔ other = later) ∧
    ∀ fields : Fields, fields.Writable →
      (∀ spelling : Date.Spelling, ¬fields.DateInRange →
        Refused .date (spelling.write fields)) ∧
      ∀ spelling : Timestamp.Spelling, spelling.Writable →
        ¬fields.DateInRange ∨ ¬fields.TimeInRange ∨ spelling.ahead? = none →
        Refused .timestamp (spelling.write fields) := by
  intro bound Refused
  refine ⟨?_, ?_, ?_⟩
  · intro date spelling year
    refine ofParameter_eq_ok_iff.mpr ?_
    rw [ofJson?_date_write lawful (Date.writable_fields year) spelling leading trailing,
      date.date?_fields, Option.map_some]
  · intro moment year whole
    refine ⟨?_, ?_⟩
    · intro spelling listed
      have unmoved : spelling.Writable ∧ spelling.ahead? = some 0 := by
        simp only [List.mem_cons, List.not_mem_nil, or_false] at listed
        rcases listed with rfl | rfl | rfl | rfl <;> exact ⟨trivial, rfl⟩
      obtain ⟨instant, read, only⟩ :=
        exists_ofJson?_timestamp lawful year whole spelling unmoved.1 unmoved.2 leading trailing
      have same : moment = instant := (only moment).mp moment.precedes_zero
      rw [← same] at read
      exact ofParameter_eq_ok_iff.mpr read
    · intro hours minutes hour minute ahead behind
      have digits : hours < 100 ∧ minutes < 100 := by omega
      have aheadOf : ahead.ahead? = some (hours * 60 + minutes : Nat) := if_pos ⟨hour, minute⟩
      have behindOf : behind.ahead? = some (-((hours * 60 + minutes : Nat) : Int)) :=
        if_pos ⟨hour, minute⟩
      obtain ⟨earlier, read, before⟩ :=
        exists_ofJson?_timestamp lawful year whole ahead digits aheadOf leading trailing
      obtain ⟨later, readToo, after⟩ :=
        exists_ofJson?_timestamp lawful year whole behind digits behindOf leading trailing
      exact ⟨⟨earlier, ofParameter_eq_ok_iff.mpr read, before⟩,
        later, ofParameter_eq_ok_iff.mpr readToo, after⟩
  · intro fields writable
    refine ⟨?_, ?_⟩
    · intro spelling outside
      exact ofParameter_refuses
        (ofJson?_date_of_outside lawful writable spelling outside leading trailing)
    · intro spelling digits outside
      exact ofParameter_refuses
        (ofJson?_timestamp_of_outside lawful writable digits outside leading trailing)

/-- Shortly before the end of a year, by a clock that is behind universal time; and a leap day in a
year that has none. -/
theorem ofParameter_spelled_newYear :
    let moment : Timestamp := ⟨⟨2023, 12, 31, by decide, by decide, by decide⟩,
      ⟨23, 59, 7, 0, by decide, by decide, by decide, by decide⟩⟩
    let later : Timestamp := ⟨⟨2024, 1, 1, by decide, by decide, by decide⟩,
      ⟨0, 44, 7, 0, by decide, by decide, by decide, by decide⟩⟩
    let text := (Timestamp.Spelling.zoned (.behind 0 45)).write moment.fields
    let leapDay := Date.Spelling.dashed.write { year := 2023, month := 2, day := 29 }
    text = "2023-12-31T23:59:07-00:45" ∧ leapDay = "2023-02-29" ∧
      ofParameter ⟨1, .string ("\u00a0" ++ text ++ "\n"), .timestamp⟩ Calendar.readers =
        .ok (.timestamp later) ∧
      ∃ fault,
        ofParameter ⟨1, .string ("\u00a0" ++ leapDay ++ "\n"), .date⟩ Calendar.readers =
          .error fault ∧ fault.kind = .parameterType := by
  intro moment later text leapDay
  have leading : ∀ c ∈ "\u00a0".toList, Text.isBlank c = true := List.all_eq_true.mp (by decide)
  have trailing : ∀ c ∈ "\n".toList, Text.isBlank c = true := List.all_eq_true.mp (by decide)
  obtain ⟨_, timestamps, refused⟩ := ofParameter_spelled lawful_readers 1 leading trailing
  obtain ⟨_, zoned⟩ := timestamps moment (by decide) rfl
  obtain ⟨_, universal, bound, only⟩ := zoned 0 45 (by decide) (by decide)
  have same : later = universal := (only later).mp ⟨by decide, rfl, rfl⟩
  rw [← same] at bound
  have writable : Fields.Writable { year := 2023, month := 2, day := 29 } :=
    ⟨by decide, by decide, by decide, by decide, by decide, by decide, rfl⟩
  refine ⟨by decide, by decide, bound, (refused _ writable).1 .dashed ?_⟩
  rintro ⟨_, _, last⟩
  exact absurd last (by decide)

end BindValue

end SelectCompiler
