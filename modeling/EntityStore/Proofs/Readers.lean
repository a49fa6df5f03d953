import EntityStore.Proofs.Handles
import EntityStore.Proofs.Moments
import EntityStore.Proofs.Parts

set_option autoImplicit false

namespace EntityStore

/-- The readers of properties. -/
inductive Reader where
  | isNull | string | long | double | boolean | dateTime | key | blob | raw | entity | list

namespace Reader

/-- What a reader gives. -/
abbrev Result : Reader → Type
  | isNull => Bool
  | string => String
  | long => Int
  | double => Double
  | boolean => Bool
  | dateTime => CivilTime
  | key => Key
  | blob => List UInt8
  | raw => List UInt8
  | entity => AnyEntity
  | list => List Element

/-- Reads a property of an entity. -/
def read (e : AnyEntity) (name : String) : (r : Reader) → Except Error r.Result
  | isNull => e.isNull name
  | string => e.string name
  | long => e.long name
  | double => e.double name
  | boolean => e.boolean name
  | dateTime => e.dateTime name
  | key => e.keyProperty name
  | blob => e.blob name
  | raw => e.raw name
  | entity => e.nested name
  | list => e.list name

/-- The sort of values that a reader is for; asking whether a value is null makes sense for all sorts. -/
def own? : Reader → Option Variant
  | isNull => none
  | string => some .string
  | long => some .long
  | double => some .double
  | boolean => some .boolean
  | dateTime => some .dateTime
  | key => some .key
  | blob => some .blob
  | raw => some .raw
  | entity => some .entity
  | list => some .list

/-- The values that a reader takes in the rows of projections though they are of another sort: moments stand for
their numbers, and integers that are marked as moments for the moments with these numbers. -/
inductive TakesInRow : Reader → Value → Prop where
  | number (t : CivilTime) (m : Marks) : TakesInRow .long (.single ⟨.dateTime t, m⟩)
  | moment (n : Long) {m : Marks} (marked : m.meaning = some momentMeaning) :
      TakesInRow .dateTime (.single ⟨.long n, m⟩)

/-- Whether a reader takes a value. -/
def Accepts (projected : Bool) (r : Reader) (v : Value) : Prop :=
  r.own? = none ∨ r.own? = some v.variant ∨ projected = true ∧ r.TakesInRow v

/-- What a reader gives for a value that it takes: the payload, the number of a moment, or the moment of a number. -/
inductive Gives : (r : Reader) → Value → r.Result → Prop where
  | isNull (v : Value) : Gives .isNull v (v.variant = .null)
  | string (s : String) (m : Marks) : Gives .string (.single ⟨.string s, m⟩) s
  | long (n : Long) (m : Marks) : Gives .long (.single ⟨.long n, m⟩) n.value
  | double (x : Double) (m : Marks) : Gives .double (.single ⟨.double x, m⟩) x
  | boolean (b : Bool) (m : Marks) : Gives .boolean (.single ⟨.boolean b, m⟩) b
  | dateTime (t : CivilTime) (m : Marks) : Gives .dateTime (.single ⟨.dateTime t, m⟩) t
  | key (k : Key) (m : Marks) : Gives .key (.single ⟨.key k, m⟩) k
  | blob (b : List UInt8) (m : Marks) : Gives .blob (.single ⟨.blob b, m⟩) b
  | raw (b : List UInt8) (m : Marks) : Gives .raw (.single ⟨.raw b, m⟩) b
  | entity (e : AnyEntity) (m : Marks) : Gives .entity (.single ⟨.entity e, m⟩) e
  | list (items : List Element) (m : Marks) : Gives .list (.list items m) items
  | number (t : CivilTime) (m : Marks) : Gives .long (.single ⟨.dateTime t, m⟩) t.toMicros
  | moment {n : Long} {t : CivilTime} (same : t.toMicros = n.value) (m : Marks) :
      Gives .dateTime (.single ⟨.long n, m⟩) t

/-- The answers of a reader. -/
inductive Answers (e : AnyEntity) (name : String) : (r : Reader) → Except Error r.Result → Prop where
  | missing {r : Reader} (absent : e.properties.at? name = none) :
      Answers e name r (.error (.propertyMissing name e.names))
  | refused {r : Reader} {v : Value} {own : Variant} (found : e.properties.at? name = some v)
      (sort : r.own? = some own) (other : ¬ r.Accepts e.isProjected v) :
      Answers e name r (.error (.propertyType name own v.variant))
  | given {r : Reader} {v : Value} {a : r.Result} (found : e.properties.at? name = some v)
      (accepted : r.Accepts e.isProjected v) (gives : r.Gives v a) : Answers e name r (.ok a)
  | outside {n : Long} {m : Marks} (found : e.properties.at? name = some (.single ⟨.long n, m⟩))
      (row : e.isProjected = true) (marked : m.meaning = some momentMeaning)
      (none : ∀ t : CivilTime, t.toMicros ≠ n.value) : Answers e name .dateTime (.error (.failure .calendarRange))

end Reader

namespace AnyEntity

variable {e : AnyEntity} {name : String} {v : Value}

theorem value_of_absent (absent : e.properties.at? name = none) :
    e.value name = .error (.propertyMissing name e.names) := by
  simp only [value, absent]

theorem value_eq_ok_iff : e.value name = .ok v ↔ e.properties.at? name = some v := by
  unfold value
  cases e.properties.at? name <;> simp

theorem readScalar_of_absent {α : Type} (absent : e.properties.at? name = none) (own : Variant)
    (p : Scalar → Option α) :
    e.readScalar name own p = .error (.propertyMissing name e.names) := by
  rw [readScalar, value_of_absent absent]
  rfl

theorem readScalar_of_single {α : Type} {s : Scalar} {m : Marks}
    (found : e.properties.at? name = some (.single ⟨s, m⟩)) (own : Variant) (p : Scalar → Option α) :
    e.readScalar name own p = match p s with
      | some a => .ok a
      | none => .error (.propertyType name own s.variant) := by
  rw [readScalar, value_eq_ok_iff.mpr found]
  simp only [bind, Except.bind]
  cases p s <;> rfl

theorem readScalar_of_list {α : Type} {items : List Element} {m : Marks}
    (found : e.properties.at? name = some (.list items m)) (own : Variant) (p : Scalar → Option α) :
    e.readScalar name own p = .error (.propertyType name own .list) := by
  rw [readScalar, value_eq_ok_iff.mpr found]
  rfl

end AnyEntity

namespace Reader

variable {e : AnyEntity} {name : String} {r : Reader}

/-- A choice of payloads that takes those of one sort, and of these what a reader gives. -/
def Picks (r : Reader) (own : Variant) (p : Scalar → Option r.Result) : Prop :=
  ∀ s m, match p s with
    | some a => s.variant = own ∧ r.Gives (.single ⟨s, m⟩) a
    | none => s.variant ≠ own

/-- An integer that is marked as a moment is taken in the row of a projection. -/
theorem accepts_marked {n : Long} {m : Marks} (row : e.isProjected = true) (marked : m.meaning = some momentMeaning) :
    Accepts e.isProjected .dateTime (.single ⟨.long n, m⟩) := Or.inr (Or.inr ⟨row, .moment n marked⟩)

theorem not_accepts {own : Variant} {v : Value} (sort : r.own? = some own) (other : v.variant ≠ own)
    (plain : e.isProjected = true → ¬ r.TakesInRow v) : ¬ r.Accepts e.isProjected v := by
  rintro (all | same | ⟨row, takes⟩)
  · rw [sort] at all
    cases all
  · rw [sort] at same
    exact other (Option.some.inj same).symm
  · exact plain row takes

/-- A reader that looks at the payloads of one sort answers as it should, unless it takes the value for another
reason. -/
theorem answers_of_readScalar {own : Variant} {p : Scalar → Option r.Result} (sort : r.own? = some own)
    (single : own ≠ .list) (picks : r.Picks own p)
    (plain : ∀ v, e.properties.at? name = some v → e.isProjected = true → ¬ r.TakesInRow v) :
    Answers e name r (e.readScalar name own p) := by
  cases found : e.properties.at? name with
  | none =>
      rw [AnyEntity.readScalar_of_absent found]
      exact .missing found
  | some v =>
      cases v with
      | list items m =>
          rw [AnyEntity.readScalar_of_list found]
          exact .refused found sort (not_accepts sort single.symm (plain _ found))
      | single x =>
          obtain ⟨s, m⟩ := x
          rw [AnyEntity.readScalar_of_single found]
          have picked := picks s m
          cases looked : p s with
          | none =>
              rw [looked] at picked
              exact .refused found sort (not_accepts sort picked (plain _ found))
          | some a =>
              rw [looked] at picked
              obtain ⟨rfl, gives⟩ := picked
              exact .given found (Or.inr (Or.inl sort)) gives

/-- Most readers take values of their own sort only. -/
theorem answers_of_plain {own : Variant} {p : Scalar → Option r.Result} (sort : r.own? = some own)
    (single : own ≠ .list) (picks : r.Picks own p) (number : r ≠ .long) (moment : r ≠ .dateTime) :
    Answers e name r (e.readScalar name own p) := by
  apply answers_of_readScalar sort single picks
  intro v _ _ takes
  cases takes with
  | number => exact number rfl
  | moment => exact moment rfl

theorem answers_isNull (e : AnyEntity) (name : String) : Answers e name .isNull (e.isNull name) := by
  unfold AnyEntity.isNull
  cases found : e.properties.at? name with
  | none =>
      rw [AnyEntity.value_of_absent found]
      exact .missing found
  | some v =>
      rw [AnyEntity.value_eq_ok_iff.mpr found]
      exact .given found (Or.inl rfl) (.isNull v)

theorem answers_list (e : AnyEntity) (name : String) : Answers e name .list (e.list name) := by
  unfold AnyEntity.list
  cases found : e.properties.at? name with
  | none =>
      rw [AnyEntity.value_of_absent found]
      exact .missing found
  | some v =>
      rw [AnyEntity.value_eq_ok_iff.mpr found]
      cases v with
      | list items m => exact .given found (Or.inr (Or.inl rfl)) (.list items m)
      | single x =>
          have other : (Value.single x).variant ≠ .list := x.scalar.variant_ne_list
          exact .refused found rfl (not_accepts rfl other nofun)

/-- In the row of a projection a moment is read as its number. -/
theorem long_of_moment {t : CivilTime} {m : Marks} (row : e.isProjected = true)
    (found : e.properties.at? name = some (.single ⟨.dateTime t, m⟩)) : e.long name = .ok t.toMicros := by
  rw [AnyEntity.long, if_pos row, AnyEntity.value_eq_ok_iff.mpr found]

theorem long_of_other
    (other : ∀ t m, e.isProjected = true → e.properties.at? name ≠ some (.single ⟨.dateTime t, m⟩)) :
    e.long name = e.plainLong name := by
  unfold AnyEntity.long
  by_cases row : e.isProjected = true
  · rw [if_pos row]
    split
    · next t m held => exact absurd (AnyEntity.value_eq_ok_iff.mp held) (other t m row)
    · rfl
  · rw [if_neg row]

/-- In the row of a projection an integer that is marked as a moment is read as the moment with this number. -/
theorem dateTime_of_marked {n : Long} {m : Marks} (row : e.isProjected = true)
    (found : e.properties.at? name = some (.single ⟨.long n, m⟩)) (marked : m.meaning = some momentMeaning) :
    e.dateTime name = AnyEntity.moment n.value := by
  rw [AnyEntity.dateTime, if_pos row, AnyEntity.value_eq_ok_iff.mpr found]
  simp only [marked, if_true]

theorem dateTime_of_other (other : ∀ n m, e.isProjected = true →
      e.properties.at? name = some (.single ⟨.long n, m⟩) → m.meaning ≠ some momentMeaning) :
    e.dateTime name = e.plainDateTime name := by
  unfold AnyEntity.dateTime
  by_cases row : e.isProjected = true
  · rw [if_pos row]
    split
    · next n m held => rw [if_neg (other n m row (AnyEntity.value_eq_ok_iff.mp held))]
    · rfl
  · rw [if_neg row]

theorem answers_long (e : AnyEntity) (name : String) : Answers e name .long (e.long name) := by
  by_cases moment : ∃ t m, e.isProjected = true ∧ e.properties.at? name = some (.single ⟨.dateTime t, m⟩)
  · obtain ⟨t, m, row, found⟩ := moment
    rw [long_of_moment row found]
    exact .given found (Or.inr (Or.inr ⟨row, .number t m⟩)) (.number t m)
  · rw [long_of_other fun t m row found => moment ⟨t, m, row, found⟩]
    refine answers_of_readScalar rfl ?_ ?_ ?_
    · exact nofun
    · intro s m
      cases s <;> first | exact ⟨rfl, .long _ _⟩ | exact nofun
    · intro v found row takes
      cases takes with
      | number t m => exact moment ⟨t, m, row, found⟩

theorem ofMicros?_eq_none_iff {n : Int} : CivilTime.ofMicros? n = none ↔ ∀ t : CivilTime, t.toMicros ≠ n := by
  rw [Option.eq_none_iff_forall_ne_some]
  exact forall_congr' fun t => not_congr CivilTime.ofMicros?_eq_some_iff

theorem answers_dateTime (e : AnyEntity) (name : String) : Answers e name .dateTime (e.dateTime name) := by
  by_cases marked : ∃ n m, e.isProjected = true ∧ e.properties.at? name = some (.single ⟨.long n, m⟩) ∧
      m.meaning = some momentMeaning
  · obtain ⟨n, m, row, found, marked⟩ := marked
    rw [dateTime_of_marked row found marked, AnyEntity.moment]
    cases converted : CivilTime.ofMicros? n.value with
    | none => exact .outside found row marked (ofMicros?_eq_none_iff.mp converted)
    | some t =>
        have gives := Gives.moment (CivilTime.ofMicros?_eq_some_iff.mp converted) m
        exact .given found (accepts_marked row marked) gives
  · rw [dateTime_of_other fun n m row found meaning => marked ⟨n, m, row, found, meaning⟩]
    refine answers_of_readScalar rfl ?_ ?_ ?_
    · exact nofun
    · intro s m
      cases s <;> first | exact ⟨rfl, .dateTime _ _⟩ | exact nofun
    · intro v found row takes
      cases takes with
      | moment n meaning => exact marked ⟨n, _, row, found, meaning⟩

theorem answers_read (e : AnyEntity) (name : String) (r : Reader) : Answers e name r (r.read e name) := by
  cases r with
  | isNull => exact answers_isNull e name
  | long => exact answers_long e name
  | dateTime => exact answers_dateTime e name
  | list => exact answers_list e name
  | string | double | boolean | key | blob | raw | entity =>
      refine answers_of_plain rfl ?_ ?_ ?_ ?_
      · exact nofun
      · intro s m
        cases s <;> first | exact ⟨rfl, by constructor⟩ | exact nofun
      · exact nofun
      · exact nofun

theorem Gives.unique {v : Value} {a b : r.Result} (first : r.Gives v a) (second : r.Gives v b) : a = b := by
  cases first with
  | moment same =>
      cases second with
      | moment other => exact CivilTime.toMicros_injective (same.trans other.symm)
  | _ => cases second; rfl

theorem not_gives_of_outside {n : Long} {m : Marks} {t : CivilTime} (none : ∀ t : CivilTime, t.toMicros ≠ n.value) :
    ¬ Gives .dateTime (.single ⟨.long n, m⟩) t := by
  intro gives
  cases gives with
  | moment same => exact none t same

/-- A reader has no second answer. -/
theorem Answers.unique {x y : Except Error r.Result} (first : Answers e name r x) (second : Answers e name r y) :
    x = y := by
  have both {v w : Value} (here : e.properties.at? name = some v) (there : e.properties.at? name = some w) : v = w :=
    Option.some.inj (here.symm.trans there)
  cases first with
  | missing absent =>
      cases second with
      | missing => rfl
      | refused found | given found | outside found => simp [absent] at found
  | refused found sort other =>
      cases second with
      | missing absent => simp [found] at absent
      | refused again sortAgain =>
          obtain rfl := both found again
          obtain rfl := Option.some.inj (sort.symm.trans sortAgain)
          rfl
      | given again accepted =>
          obtain rfl := both found again
          exact absurd accepted other
      | outside again row marked =>
          obtain rfl := both found again
          exact absurd (accepts_marked row marked) other
  | given found accepted gives =>
      cases second with
      | missing absent => simp [found] at absent
      | refused again sort other =>
          obtain rfl := both found again
          exact absurd accepted other
      | given again acceptedAgain givesAgain =>
          obtain rfl := both found again
          rw [gives.unique givesAgain]
      | outside again row marked none =>
          obtain rfl := both found again
          exact absurd gives (not_gives_of_outside none)
  | outside found row marked none =>
      cases second with
      | missing absent => simp [found] at absent
      | refused again sort other =>
          obtain rfl := both found again
          exact absurd (accepts_marked row marked) other
      | given again accepted gives =>
          obtain rfl := both found again
          exact absurd gives (not_gives_of_outside none)
      | outside => rfl

theorem read_eq_iff (e : AnyEntity) (name : String) (r : Reader) (answer : Except Error r.Result) :
    r.read e name = answer ↔ Answers e name r answer := by
  constructor
  · rintro rfl
    exact answers_read e name r
  · exact (answers_read e name r).unique

/-- There is a moment for every number in the calendar and for no other. -/
theorem no_moment_iff {n : Int} :
    (∀ t : CivilTime, t.toMicros ≠ n) ↔ n < -62135596800000000 ∨ 253402300799999999 < n := by
  constructor
  · intro none
    by_contra inside
    have inCalendar : -62135596800000000 ≤ n ∧ n ≤ 253402300799999999 := by omega
    obtain ⟨t, same⟩ := CivilTime.exists_toMicros_eq inCalendar
    exact none t same
  · rintro outside t rfl
    have bounds := t.toMicros_bounds
    omega

/-- Whether a reader fails with a report of a kind, or with none. -/
def Fails (e : AnyEntity) (name : String) (r : Reader) (kind? : Option ErrorKind) : Prop :=
  ∃ error, r.read e name = .error error ∧ error.kind? = kind?

theorem fails_iff {kind? : Option ErrorKind} :
    r.Fails e name kind? ↔ ∃ error, Answers e name r (.error error) ∧ error.kind? = kind? :=
  exists_congr fun error => and_congr_left fun _ => read_eq_iff e name r (.error error)

theorem fails_notFound_iff : r.Fails e name (some .propertyNotFound) ↔ e.properties.at? name = none := by
  rw [fails_iff]
  constructor
  · rintro ⟨error, answers, kind⟩
    cases answers with
    | missing absent => exact absent
    | refused | outside => cases kind
  · intro absent
    exact ⟨_, .missing absent, rfl⟩

/-- A reader that is for one sort only says so when it does not take a value. -/
theorem exists_own {v : Value} (other : ¬ r.Accepts e.isProjected v) : ∃ own, r.own? = some own :=
  Option.ne_none_iff_exists'.mp fun all => other (Or.inl all)

theorem fails_type_iff : r.Fails e name (some .propertyType) ↔
    ∃ v, e.properties.at? name = some v ∧ ¬ r.Accepts e.isProjected v := by
  rw [fails_iff]
  constructor
  · rintro ⟨error, answers, kind⟩
    cases answers with
    | refused found _ other => exact ⟨_, found, other⟩
    | missing | outside => cases kind
  · rintro ⟨v, found, other⟩
    obtain ⟨own, sort⟩ := exists_own other
    exact ⟨_, .refused found sort other, rfl⟩

theorem fails_silently_iff : r.Fails e name none ↔ r = .dateTime ∧ e.isProjected = true ∧
    ∃ n m, e.properties.at? name = some (.single ⟨.long n, m⟩) ∧ m.meaning = some momentMeaning ∧
      (n.value < -62135596800000000 ∨ 253402300799999999 < n.value) := by
  rw [fails_iff]
  constructor
  · rintro ⟨error, answers, kind⟩
    cases answers with
    | missing | refused => cases kind
    | outside found row marked none => exact ⟨rfl, row, _, _, found, marked, no_moment_iff.mp none⟩
  · rintro ⟨rfl, row, n, m, found, marked, far⟩
    exact ⟨_, .outside found row marked (no_moment_iff.mpr far), rfl⟩

/-- There is no other way to fail. -/
theorem kind_of_fails {kind? : Option ErrorKind} (fails : r.Fails e name kind?) :
    kind? = some .propertyNotFound ∨ kind? = some .propertyType ∨ kind? = none := by
  obtain ⟨error, answers, rfl⟩ := fails_iff.mp fails
  cases answers with
  | missing => exact Or.inl rfl
  | refused => exact Or.inr (Or.inl rfl)
  | outside => exact Or.inr (Or.inr rfl)

/-- A reader reports a missing property, or one of another sort, or gives what the value stands for.  Only an integer
that is marked as a moment outside the calendar makes it fail without a report. -/
theorem reads_or_fails (e : AnyEntity) (name : String) (r : Reader) :
    (∀ answer, r.read e name = answer ↔ Answers e name r answer) ∧
    (r.Fails e name (some .propertyNotFound) ↔ name ∉ e.names) ∧
    (r.Fails e name (some .propertyType) ↔
      ∃ v, e.properties.at? name = some v ∧ ¬ r.Accepts e.isProjected v) ∧
    (r.Fails e name none ↔ r = .dateTime ∧ e.isProjected = true ∧
      ∃ n m, e.properties.at? name = some (.single ⟨.long n, m⟩) ∧ m.meaning = some momentMeaning ∧
        (n.value < -62135596800000000 ∨ 253402300799999999 < n.value)) ∧
    (∀ kind?, r.Fails e name kind? → kind? = some .propertyNotFound ∨ kind? = some .propertyType ∨ kind? = none) ∧
    ∀ a, r.read e name = .ok a ↔
      ∃ v, e.properties.at? name = some v ∧ r.Accepts e.isProjected v ∧ r.Gives v a := by
  refine ⟨read_eq_iff e name r, ?_, fails_type_iff, fails_silently_iff, fun _ => kind_of_fails, fun a => ?_⟩
  · rw [fails_notFound_iff]
    exact Bindings.at?_eq_none_iff e.properties name
  · rw [read_eq_iff]
    constructor
    · intro answers
      cases answers with
      | given found accepted gives => exact ⟨_, found, accepted, gives⟩
    · rintro ⟨v, found, accepted, gives⟩
      exact .given found accepted gives

/-- A marked integer in the row of a projection is read as a moment, and a nested entity is not. -/
theorem reads_or_fails_in_row :
    let key : Key := ⟨⟨⟨"app", by decide⟩, none, [], ⟨"Task", by decide⟩⟩, .id ⟨1, by decide⟩⟩
    let number : Value := .single ⟨.long ⟨-2077660800000001, by decide⟩, none, some momentMeaning⟩
    let nested : Value := .single ⟨.entity (.draft (.complete key) []), some false, none⟩
    let row : AnyEntity := .keyed ⟨.projected, key, [("due", number), ("part", nested)]⟩
    Reader.dateTime.read row "due" = .ok ⟨⟨1904, 2, 29, 23, 59, 59, 999999⟩, by decide⟩ ∧
      Reader.dateTime.Fails row "part" (some .propertyType) ∧ Reader.isNull.read row "part" = .ok false := by
  intro key number nested row
  obtain ⟨-, -, -, -, -, due⟩ := reads_or_fails row "due" .dateTime
  obtain ⟨-, -, refused, -⟩ := reads_or_fails row "part" .dateTime
  obtain ⟨-, -, -, -, -, asked⟩ := reads_or_fails row "part" .isNull
  refine ⟨(due _).mpr ⟨number, rfl, ?_, ?_⟩, refused.mpr ⟨nested, rfl, ?_⟩, (asked _).mpr ⟨nested, rfl, Or.inl rfl, ?_⟩⟩
  · exact accepts_marked rfl rfl
  · exact .moment (by decide) _
  · rintro (all | same | ⟨-, takes⟩)
    · cases all
    · cases same
    · subst nested
      cases takes
  · exact .isNull nested

/-- A stored integer that is marked as a moment, though there is none with this number, is taken in the row of a
projection and cannot be read. -/
theorem moment_outside_calendar :
    let key : Key := ⟨⟨⟨"app", by decide⟩, none, [], ⟨"Task", by decide⟩⟩, .id ⟨1, by decide⟩⟩
    let number : Element := ⟨.long ⟨9223372036854775807, by decide⟩, none, some momentMeaning⟩
    let e : Entity := ⟨.stored, key, [("due", .single number)]⟩
    ∃ row ∈ e.project ["due"], (AnyEntity.keyed row.entity).properties = [("due", .single number)] ∧
      Reader.dateTime.Accepts (AnyEntity.keyed row.entity).isProjected (.single number) ∧
      Reader.dateTime.read (.keyed row.entity) "due" = .error (.failure .calendarRange) ∧
      (Error.failure .calendarRange).kind? = none := by
  intro key number e
  refine ⟨⟨key, [⟨"due", 0, number⟩]⟩, List.mem_singleton_self _, rfl, ?_, rfl, rfl⟩
  exact accepts_marked rfl rfl

end Reader

end EntityStore
