import SelectCompiler.Proofs.Calendar.Laws
import SelectCompiler.Proofs.Calendar.Shift

/-!
The readers of the program do what is asked of readers. A written item is read back whatever follows
it, so a layout is read back item by item, and blanks take the blanks that there are; the internet
form is read back part by part.
-/

namespace SelectCompiler

namespace Calendar

theorem dropWhile_isBlank_of_head? {chars : List Char}
    (visible : ∀ c ∈ chars.head?, Text.isBlank c = false) :
    chars.dropWhile Text.isBlank = chars := by
  cases chars with
  | nil => rfl
  | cons c rest =>
    exact List.dropWhile_cons_of_neg (by rw [visible c rfl]; exact Bool.false_ne_true)

theorem number?_eq_none {width : Nat} {chars : List Char}
    (other : ∀ c ∈ chars.head?, c.isDigit = false) : number? width chars = none := by
  have undigited : chars.takeWhile Char.isDigit = [] := by
    cases chars with
    | nil => rfl
    | cons c rest =>
      exact List.takeWhile_cons_of_neg (by rw [other c rfl]; exact Bool.false_ne_true)
  rw [number?, undigited, List.take_nil]
  rfl

namespace IsNumeral

variable {width n : Nat} {digits : List Char}

theorem dropWhile_isBlank (numeral : IsNumeral width n digits) (rest : List Char) :
    (digits ++ rest).dropWhile Text.isBlank = digits ++ rest := by
  obtain ⟨c, others, rfl, digit⟩ := numeral.exists_first
  exact List.dropWhile_cons_of_neg (by rw [Text.isBlank_of_isDigit digit]; exact Bool.false_ne_true)

theorem number?_append (numeral : IsNumeral width n digits) (rest : List Char) :
    number? width (digits ++ rest) = some (n, rest) := by
  have taken : ((digits ++ rest).takeWhile Char.isDigit).take width = digits := by
    rw [List.takeWhile_append_of_pos numeral.digit, List.take_left' numeral.length]
  obtain ⟨c, others, split, _⟩ := numeral.exists_first
  have nonempty : digits.isEmpty = false := by rw [split]; rfl
  simp only [number?, taken, nonempty, numeral.value, List.drop_left', Bool.false_eq_true, if_false]

theorem fixed?_append (numeral : IsNumeral width n digits) (rest : List Char) :
    fixed? width (digits ++ rest) = some (n, rest) := by
  have taken : (digits ++ rest).take width = digits := List.take_left' numeral.length
  have all : digits.all Char.isDigit = true := List.all_eq_true.mpr numeral.digit
  simp only [fixed?, taken, numeral.length, all, numeral.value, and_self, if_true,
    List.drop_left' numeral.length]

theorem year?_append (numeral : IsNumeral 4 n digits) (rest : List Char) :
    year? (digits ++ rest) = some ((n : Int), rest) := by
  obtain ⟨c, others, split, digit⟩ := numeral.exists_first
  have read := numeral.number?_append rest
  rw [split, List.cons_append] at read ⊢
  unfold year?
  split
  · rename_i minus
    rw [(List.cons.inj minus).1] at digit
    contradiction
  · rename_i plus
    rw [(List.cons.inj plus).1] at digit
    contradiction
  · rw [read]
    rfl

end IsNumeral

namespace LayoutItem

/-- The number that an item stands for. -/
def number (fields : Fields) : LayoutItem → Int
  | .year => fields.year
  | .month => fields.month
  | .day => fields.day
  | .hour => fields.hour
  | .minute => fields.minute
  | .second => fields.second
  | .literal _ | .blanks => 0

/-- The number that an item stands for, taken over from other numbers. -/
def copy (fields stored : Fields) : LayoutItem → Fields
  | .year => { stored with year := fields.year }
  | .month => { stored with month := fields.month }
  | .day => { stored with day := fields.day }
  | .hour => { stored with hour := fields.hour }
  | .minute => { stored with minute := fields.minute }
  | .second => { stored with second := fields.second }
  | .literal _ | .blanks => stored

variable {fields stored : Fields} {item other : LayoutItem}

theorem number_copy (agrees : item = other ∨ item.number stored = item.number fields) :
    item.number (other.copy fields stored) = item.number fields := by
  rcases agrees with rfl | kept
  · cases item <;> rfl
  · cases other <;> cases item <;> first | rfl | exact kept

/-- What a layout lists is taken over, and nothing that was taken over is lost. -/
theorem number_foldl_copy {layout : List LayoutItem}
    (agrees : item ∈ layout ∨ item.number stored = item.number fields) :
    item.number (layout.foldl (copy fields) stored) = item.number fields := by
  induction layout generalizing stored with
  | nil => exact agrees.resolve_left List.not_mem_nil
  | cons first rest ih =>
    apply ih
    rw [List.mem_cons, or_assoc, or_left_comm] at agrees
    exact agrees.imp_right number_copy

theorem nanosecond_foldl_copy (fields : Fields) (layout : List LayoutItem) :
    (layout.foldl (copy fields) stored).nanosecond = stored.nanosecond := by
  induction layout generalizing stored with
  | nil => rfl
  | cons first rest ih =>
    rw [List.foldl_cons, ih]
    cases first <;> rfl

end LayoutItem

section Layouts

variable {fields : Fields}

/-- A written item is read back, whatever follows it. Blanks are not: they take all the blanks that
there are. -/
theorem readItem?_write (writable : fields.Writable) {item : LayoutItem}
    (tight : item.isTight = true) (stored : Fields) (rest : List Char) :
    readItem? item stored (item.write fields ++ rest) = some (item.copy fields stored, rest) := by
  have two {n : Nat} (small : n < 100) :
      number? 2 (((padded 2 n).toList ++ rest).dropWhile Text.isBlank) = some (n, rest) := by
    have numeral := isNumeral_two small
    rw [numeral.dropWhile_isBlank, numeral.number?_append]
  cases item with
  | year =>
    have numeral := writable.isNumeral_year
    have back : (fields.year.toNat : Int) = fields.year := Int.toNat_of_nonneg writable.year.1
    simp only [readItem?, LayoutItem.write, numeral.dropWhile_isBlank, numeral.year?_append, back,
      Option.map_some]
    rfl
  | month | day | hour | minute | second =>
    simp only [readItem?, LayoutItem.write, LayoutItem.copy, two writable.month, two writable.day,
      two writable.hour, two writable.minute, two writable.second, Option.map_some]
  | literal c => exact if_pos rfl
  | blanks => exact absurd tight Bool.false_ne_true

/-- A tight item has no blank in front. -/
theorem dropWhile_write_append (writable : fields.Writable) {item : LayoutItem}
    (tight : item.isTight = true) (rest : List Char) :
    (item.write fields ++ rest).dropWhile Text.isBlank = item.write fields ++ rest := by
  cases item with
  | year | month | day | hour | minute | second =>
    refine (LayoutItem.isNumeral_write writable ?_).elim fun _ numeral =>
      numeral.dropWhile_isBlank rest
    decide
  | literal c => exact List.dropWhile_cons_of_neg (by simpa [LayoutItem.isTight] using tight)
  | blanks => exact absurd tight Bool.false_ne_true

/-- A layout that begins with written items goes on behind them. -/
theorem readLayout?_append (writable : fields.Writable) {front : List LayoutItem}
    (tight : ∀ item ∈ front, item.isTight = true) (stored : Fields) (items : List LayoutItem)
    (rest : List Char) :
    readLayout? stored (front ++ items) (front.flatMap (LayoutItem.write fields) ++ rest) =
      readLayout? (front.foldl (LayoutItem.copy fields) stored) items rest := by
  induction front generalizing stored with
  | nil => rfl
  | cons item others ih =>
    obtain ⟨here, there⟩ := List.forall_mem_cons.mp tight
    rw [List.flatMap_cons, List.append_assoc, List.cons_append, readLayout?,
      readItem?_write writable here, Option.bind_some]
    exact ih there _

/-- Blanks take those behind them along, so a layout is read back with and without the blanks in
front of it. -/
theorem readLayout?_write (writable : fields.Writable) {layout : List LayoutItem}
    (spelled : ∀ item ∈ layout, item.isTight = true ∨ item = .blanks) (stored : Fields) :
    readLayout? stored layout (layout.flatMap (LayoutItem.write fields)) =
        some (layout.foldl (LayoutItem.copy fields) stored) ∧
      readLayout? stored layout
          ((layout.flatMap (LayoutItem.write fields)).dropWhile Text.isBlank) =
        some (layout.foldl (LayoutItem.copy fields) stored) := by
  induction layout generalizing stored with
  | nil => exact ⟨rfl, rfl⟩
  | cons item others ih =>
    obtain ⟨here, there⟩ := List.forall_mem_cons.mp spelled
    rw [List.flatMap_cons, List.foldl_cons]
    rcases here with tight | rfl
    · rw [dropWhile_write_append writable tight, and_self, readLayout?,
        readItem?_write writable tight, Option.bind_some]
      exact (ih there _).1
    · have behind := (ih there stored).2
      have blank (rest : List Char) : (LayoutItem.blanks.write fields ++ rest).dropWhile
          Text.isBlank = rest.dropWhile Text.isBlank := List.dropWhile_cons_of_pos (by decide)
      rw [readLayout?, readLayout?, readItem?, readItem?, blank, List.dropWhile_idempotent,
        Option.bind_some, and_self]
      exact behind

theorem readLayout?_literal {c : Char} {chars : List Char} (apart : chars.head? ≠ some c)
    (stored : Fields) (items : List LayoutItem) :
    readLayout? stored (.literal c :: items) chars = none := by
  cases chars with
  | nil => rfl
  | cons first rest =>
    have other : first ≠ c := mt (congrArg some) apart
    simp [readLayout?, readItem?, other]

theorem readLayout?_number {gap : List LayoutItem} (blank : ∀ item ∈ gap, item = .blanks)
    {item : LayoutItem} (short : item.isShort = true) {chars : List Char}
    (other : ∀ c ∈ chars.head?, c.isDigit = false ∧ Text.isBlank c = false) (stored : Fields)
    (items : List LayoutItem) : readLayout? stored (gap ++ item :: items) chars = none := by
  have kept := dropWhile_isBlank_of_head? fun c first => (other c first).2
  have unread : number? 2 chars = none := number?_eq_none fun c first => (other c first).1
  induction gap with
  | nil =>
    have refused : readItem? item stored chars = none := by
      cases item with
      | month | day | hour | minute | second => rw [readItem?, kept, unread, Option.map_none]
      | year | literal _ | blanks => exact absurd short Bool.false_ne_true
    rw [List.nil_append, readLayout?, refused, Option.bind_none]
  | cons first others ih =>
    obtain ⟨rfl, there⟩ := List.forall_mem_cons.mp blank
    rw [List.cons_append, readLayout?, readItem?, kept, Option.bind_some]
    exact ih there

theorem readLayout?_nil {chars : List Char} (more : chars ≠ []) :
    readLayout? fields [] chars = none := by
  cases chars with
  | nil => exact absurd rfl more
  | cons c rest => rfl

end Layouts

/-- Layouts are followed in what is made of the numbers that are needed, and of the nanoseconds,
which no layout lists. -/
theorem followsLayouts {α : Type} {needed : List LayoutItem} {make : Fields → Option α}
    (numbers : ∀ item ∈ needed, item.isTight = true)
    (determined : ∀ {first second : Fields},
      (∀ item ∈ needed, item.number first = item.number second) →
      first.nanosecond = second.nanosecond → make first = make second) :
    FollowsLayouts needed make fun layout text =>
      (readLayout? {} layout text.toList).bind make where
  written := by
    intro fields layout writable complete listed
    have spelled : ∀ item ∈ layout, item.isTight = true ∨ item = .blanks := by
      intro item member
      rcases listed item member with number | gap
      · exact .inl (numbers item number)
      · cases item with
        | literal c => exact .inl gap
        | blanks => exact .inr rfl
        | year | month | day | hour | minute | second => exact absurd gap Bool.false_ne_true
    rw [toList_write, (readLayout?_write writable spelled {}).1, Option.bind_some]
    apply determined
    · intro item member
      exact LayoutItem.number_foldl_copy (.inl (complete member))
    · rw [LayoutItem.nanosecond_foldl_copy, writable.nanosecond]
  literal := by
    intro fields front c rest tail writable tight apart
    rw [String.toList_append, toList_write, readLayout?_append writable tight,
      readLayout?_literal apart, Option.bind_none]
  number := by
    intro fields front gap item rest tail writable tight blank short other
    rw [String.toList_append, toList_write, List.append_assoc, readLayout?_append writable tight,
      readLayout?_number blank short other, Option.bind_none]
  whole := by
    intro fields layout tail writable tight more
    have read := readLayout?_append writable tight {} [] tail.toList
    rw [List.append_nil] at read
    rw [String.toList_append, toList_write, read,
      readLayout?_nil (mt String.toList_eq_nil_iff.mp more), Option.bind_none]

section InternetForm

variable {fields : Fields} {chars rest : List Char}

theorem offset?_write {zone : Zone} (writable : zone.Writable) :
    offset? zone.write.toList = zone.minutes? := by
  have magnitude {hours minutes : Nat} (twoDigits : hours < 100 ∧ minutes < 100) :
      offset?.magnitude? (padded 2 hours ++ ":" ++ padded 2 minutes).toList =
        if hours < 24 ∧ minutes < 60 then some (hours * 60 + minutes) else none := by
    have last := (isNumeral_two twoDigits.2).fixed?_append []
    rw [List.append_nil] at last
    simp [offset?.magnitude?, (isNumeral_two twoDigits.1).fixed?_append, oneOf?, last]
  cases zone with
  | universal => rfl
  | ahead hours minutes =>
    have signed : (Zone.ahead hours minutes).write.toList =
        '+' :: (padded 2 hours ++ ":" ++ padded 2 minutes).toList := by
      simp [Zone.write]
    rw [signed, offset?, magnitude writable, Zone.minutes?]
    split <;> rfl
  | behind hours minutes =>
    have signed : (Zone.behind hours minutes).write.toList =
        '-' :: (padded 2 hours ++ ":" ++ padded 2 minutes).toList := by
      simp [Zone.write]
    rw [signed, offset?, magnitude writable, Zone.minutes?]
    split <;> rfl

theorem fraction?_write (zone : Zone) :
    fraction? zone.write.toList = some (0, zone.write.toList) := by
  cases zone with
  | universal => rfl
  | ahead hours minutes | behind hours minutes => simp [Zone.write, fraction?]

theorem oneOf?_cons {accepted : List Char} {c : Char} (listed : accepted.contains c = true)
    (rest : List Char) : oneOf? accepted (c :: rest) = some rest :=
  if_pos listed

theorem internetDate?_write (writable : fields.Writable) (rest : List Char) :
    internetDate? ((write fields dashedDate).toList ++ rest) =
      some ({ year := fields.year, month := fields.month, day := fields.day }, rest) := by
  have year : (fields.year.toNat : Int) = fields.year := Int.toNat_of_nonneg writable.year.1
  have dash (rest : List Char) : oneOf? ['-'] ('-' :: rest) = some rest := oneOf?_cons rfl rest
  simp only [internetDate?, toList_write, dashedDate, List.flatMap_cons, List.flatMap_nil,
    LayoutItem.write, List.append_assoc, List.cons_append, List.nil_append,
    writable.isNumeral_year.fixed?_append, (isNumeral_two writable.month).fixed?_append,
    (isNumeral_two writable.day).fixed?_append, dash, year, Option.bind_eq_bind, Option.bind_some]
  rfl

theorem internetTime?_write (writable : fields.Writable) (date : Fields) (zone : Zone) :
    internetTime? date ((write fields colonTime).toList ++ zone.write.toList) =
      some ({ date with
        hour := fields.hour, minute := fields.minute, second := fields.second, nanosecond := 0 },
        zone.write.toList) := by
  have colon (rest : List Char) : oneOf? [':'] (':' :: rest) = some rest := oneOf?_cons rfl rest
  simp only [internetTime?, toList_write, colonTime, List.flatMap_cons, List.flatMap_nil,
    LayoutItem.write, List.append_assoc, List.cons_append, List.nil_append,
    (isNumeral_two writable.hour).fixed?_append, (isNumeral_two writable.minute).fixed?_append,
    (isNumeral_two writable.second).fixed?_append, colon, fraction?_write, Option.bind_eq_bind,
    Option.bind_some]
  rfl

theorem internetForm?_write (writable : fields.Writable) {zone : Zone} (digits : zone.Writable) :
    internetForm? (write fields (dashedDate ++ .literal 'T' :: colonTime) ++ zone.write).toList =
      fields.timestamp?.bind fun clock => zone.minutes?.map fun ahead => ⟨clock, ahead⟩ := by
  have chars : (write fields (dashedDate ++ .literal 'T' :: colonTime) ++ zone.write).toList =
      (write fields dashedDate).toList ++
        'T' :: ((write fields colonTime).toList ++ zone.write.toList) := by
    have letter : (write fields [.literal 'T']).toList = ['T'] := toList_write fields _
    rw [write_append, write_cons, String.toList_append, String.toList_append, String.toList_append,
      letter, List.append_assoc, List.append_assoc, List.singleton_append]
  have same : (⟨fields.year, fields.month, fields.day, fields.hour, fields.minute,
      fields.second, 0⟩ : Fields) = fields := by
    rw [← writable.nanosecond]
  have middle (rest : List Char) : oneOf? ['T', 't', ' '] ('T' :: rest) = some rest :=
    oneOf?_cons rfl rest
  rw [chars, internetForm?, internetDate?_write writable, Option.bind_eq_bind, Option.bind_some]
  simp only [middle, internetTime?_write writable, offset?_write digits, same, Option.bind_eq_bind,
    Option.bind_some]
  cases zone.minutes? with
  | none => cases fields.timestamp? <;> rfl
  | some ahead => cases fields.timestamp? <;> rfl

theorem length_of_fixed? {width n : Nat} (read : fixed? width chars = some (n, rest)) :
    chars.length = width + rest.length := by
  simp only [fixed?] at read
  split at read
  · rename_i digits
    rw [List.length_take] at digits
    rw [← (Prod.mk.inj (Option.some.inj read)).2, List.length_drop]
    omega
  · cases read

theorem length_of_oneOf? {accepted : List Char} (read : oneOf? accepted chars = some rest) :
    chars.length = rest.length + 1 := by
  unfold oneOf? at read
  split at read
  · split at read
    · cases read
      rfl
    · cases read
  · cases read

theorem length_of_fraction? {n : Nat} (read : fraction? chars = some (n, rest)) :
    rest.length ≤ chars.length := by
  unfold fraction? at read
  split at read
  · rename_i others
    dsimp only at read
    split at read
    · cases read
    · rw [← (Prod.mk.inj (Option.some.inj read)).2]
      exact (List.length_dropWhile_le _ _).trans (Nat.le_succ _)
  · cases read
    exact le_rfl

theorem length_of_internetDate? {date : Fields} (read : internetDate? chars = some (date, rest)) :
    chars.length = 10 + rest.length := by
  simp only [internetDate?, Option.bind_eq_bind, Option.bind_eq_some_iff, Prod.exists] at read
  obtain ⟨_, _, year, _, dash, _, _, month, _, dash', _, _, day, made⟩ := read
  obtain ⟨-, rfl⟩ := Prod.mk.inj (Option.some.inj made)
  rw [length_of_fixed? year, length_of_oneOf? dash, length_of_fixed? month, length_of_oneOf? dash',
    length_of_fixed? day]
  omega

theorem length_of_internetTime? {date found : Fields}
    (read : internetTime? date chars = some (found, rest)) : 8 + rest.length ≤ chars.length := by
  simp only [internetTime?, Option.bind_eq_bind, Option.bind_eq_some_iff, Prod.exists] at read
  obtain ⟨_, _, hour, _, colon, _, _, minute, _, colon', _, _, second, _, _, fraction, made⟩ := read
  obtain ⟨-, rfl⟩ := Prod.mk.inj (Option.some.inj made)
  have shorter := length_of_fraction? fraction
  rw [length_of_fixed? hour, length_of_oneOf? colon, length_of_fixed? minute,
    length_of_oneOf? colon', length_of_fixed? second]
  omega

/-- A date takes ten characters and a time of day eight, with one between them, and something stands
behind. -/
theorem length_of_internetForm? {zoned : Zoned} (read : internetForm? chars = some zoned) :
    19 < chars.length := by
  simp only [internetForm?, Option.bind_eq_bind, Option.bind_eq_some_iff, Prod.exists] at read
  obtain ⟨_, _, date, _, middle, _, zone, time, _, offset, _⟩ := read
  have behind : zone ≠ [] := by
    rintro rfl
    cases offset
  have filled := List.length_pos_iff.mpr behind
  have timed := length_of_internetTime? time
  rw [length_of_internetDate? date, length_of_oneOf? middle]
  omega

end InternetForm

theorem lawful_readers : readers.Lawful where
  dates := by
    refine followsLayouts (List.all_eq_true.mp rfl) ?_
    intro first second agree _
    have year : first.year = second.year := agree .year (by decide)
    have month : first.month = second.month := Int.ofNat.inj (agree .month (by decide))
    have day : first.day = second.day := Int.ofNat.inj (agree .day (by decide))
    rw [Fields.date?, Fields.date?, year, month, day]
  timestamps := by
    refine followsLayouts (List.all_eq_true.mp rfl) ?_
    intro first second agree nanosecond
    have year : first.year = second.year := agree .year (by decide)
    have month : first.month = second.month := Int.ofNat.inj (agree .month (by decide))
    have day : first.day = second.day := Int.ofNat.inj (agree .day (by decide))
    have hour : first.hour = second.hour := Int.ofNat.inj (agree .hour (by decide))
    have minute : first.minute = second.minute := Int.ofNat.inj (agree .minute (by decide))
    have secondToo : first.second = second.second := Int.ofNat.inj (agree .second (by decide))
    rw [Fields.timestamp?, Fields.timestamp?, Fields.date?, Fields.date?, year, month, day, hour,
      minute, secondToo, nanosecond]
  zoned writable digits := internetForm?_write writable digits
  form read := length_of_internetForm? read
  universal := by
    intro zoned least most after before
    obtain ⟨earlier, found, precedes⟩ :=
      zoned.clock.exists_earlier? (by omega) (by omega) after before
    have moved : readers.universal zoned = earlier := by
      simp only [readers, found, Option.getD_some]
    rw [moved]
    exact precedes

end Calendar

end SelectCompiler
