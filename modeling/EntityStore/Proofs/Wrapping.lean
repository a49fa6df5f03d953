import EntityStore.Proofs.Parts

set_option autoImplicit false

namespace EntityStore

mutual

/-- Whether a value is what a datum becomes. -/
inductive Datum.Wraps : Datum → Value → Prop where
  | value (v : Value) : Wraps (.value v) v
  | null : Wraps .none (.ofScalar .null)
  | boolean (b : Bool) : Wraps (.bool b) (.ofScalar (.boolean b))
  | long (n : Long) : Wraps (.int n.value) (.ofScalar (.long n))
  | double (x : Double) : Wraps (.double x) (.ofScalar (.double x))
  | string (s : String) : Wraps (.text s) (.ofScalar (.string s))
  | bytes (b : List UInt8) : Wraps (.bytes b) (.ofScalar (.blob b))
  | byteArray (b : List UInt8) : Wraps (.byteArray b) (.ofScalar (.blob b))
  | time {t : OffsetTime} {moment : CivilTime} (universal : t.universal? = some moment) :
      Wraps (.time t) (.ofScalar (.dateTime moment))
  | key (k : Key) : Wraps (.key (.complete k)) (.ofScalar (.key k))
  | entity (e : AnyEntity) : Wraps (.entity e) (.ofScalar (.entity e))
  | list {items : List Datum} {made : List Element} (all : WrapsAll items made) :
      Wraps (.list items) (.list made ⟨Option.none, Option.none⟩)
  | tuple {items : List Datum} {made : List Element} (all : WrapsAll items made) :
      Wraps (.tuple items) (.list made ⟨Option.none, Option.none⟩)

/-- Whether items are what data become one by one.  An item is no list. -/
inductive Datum.WrapsAll : List Datum → List Element → Prop where
  | nil : WrapsAll [] []
  | cons {d : Datum} {rest : List Datum} {x : Element} {more : List Element} (first : Datum.Wraps d (.single x))
      (all : WrapsAll rest more) : WrapsAll (d :: rest) (x :: more)

end

theorem Value.element?_eq_some_iff {v : Value} {x : Element} : v.element? = some x ↔ v = .single x := by
  cases v <;> simp [element?]

/-- Values are the items of a list if none of them is a list. -/
theorem elements_values_iff {position : Nat} {values : List Value} {made : List Element} :
    elements position (values.map .value) = .ok made ↔ values = made.map .single := by
  induction values generalizing position made with
  | nil => cases made <;> simp [elements]
  | cons v rest ih =>
      rw [List.map_cons, elements]
      cases item : v.element? with
      | none =>
          have nested (x : Element) : v ≠ .single x := fun same => by simp [same, Value.element?] at item
          cases made <;> simp [nested]
      | some x =>
          obtain rfl := Value.element?_eq_some_iff.mp item
          simp only [map_eq_ok_iff, ih]
          cases made with
          | nil => simp
          | cons y more => simpa using and_comm

/-- A sequence becomes a list of what its items become. -/
theorem Value.ofDatum_list_eq_ok_iff {items : List Datum} {v : Value} :
    ofDatum (.list items) = .ok v ↔ ∃ made, valuesOf items = .ok (made.map .single) ∧ v = .list made ⟨none, none⟩ := by
  rw [ofDatum]
  simp only [bind_eq_ok_iff, elements_values_iff]
  constructor
  · rintro ⟨_, read, made, rfl, same⟩
    cases same
    exact ⟨made, read, rfl⟩
  · rintro ⟨made, read, rfl⟩
    exact ⟨_, read, made, rfl, rfl⟩

theorem Value.ofDatum_int_eq_ok_iff {i : Int} {v : Value} :
    ofDatum (.int i) = .ok v ↔ ∃ n : Long, i = n.value ∧ v = .ofScalar (.long n) := by
  rw [ofDatum, create, Payload.create]
  simp only [← Long.ofInt?_eq_some_iff]
  cases Long.ofInt? i with
  | none =>
      constructor
      · rintro ⟨⟩
      · rintro ⟨_, ⟨⟩, -⟩
  | some n =>
      constructor
      · rintro ⟨⟩
        exact ⟨n, rfl, rfl⟩
      · rintro ⟨_, ⟨⟩, rfl⟩
        rfl

theorem Value.ofDatum_time_eq_ok_iff {t : OffsetTime} {v : Value} :
    ofDatum (.time t) = .ok v ↔ ∃ moment, t.universal? = some moment ∧ v = .ofScalar (.dateTime moment) := by
  rw [ofDatum, create, Payload.create, universalTime]
  cases t.universal? with
  | none =>
      constructor
      · rintro ⟨⟩
      · rintro ⟨_, ⟨⟩, -⟩
  | some moment =>
      constructor
      · rintro ⟨⟩
        exact ⟨moment, rfl, rfl⟩
      · rintro ⟨_, ⟨⟩, rfl⟩
        rfl

mutual

theorem Datum.Wraps.made {d : Datum} {v : Value} : d.Wraps v → Value.ofDatum d = .ok v
  | .value _ | .null | .boolean _ | .double _ | .string _ | .bytes _ | .byteArray _ | .key _ | .entity _ => rfl
  | .long n => Value.ofDatum_int_eq_ok_iff.mpr ⟨n, rfl, rfl⟩
  | .time universal => Value.ofDatum_time_eq_ok_iff.mpr ⟨_, universal, rfl⟩
  | .list all | .tuple all => Value.ofDatum_list_eq_ok_iff.mpr ⟨_, all.made, rfl⟩

theorem Datum.WrapsAll.made {data : List Datum} {items : List Element} :
    Datum.WrapsAll data items → valuesOf data = .ok (items.map .single)
  | .nil => rfl
  | .cons first all => by
      rw [valuesOf, first.made, all.made]
      rfl

end

mutual

theorem Datum.wraps_of_made : (d : Datum) → ∀ {v : Value}, Value.ofDatum d = .ok v → d.Wraps v
  | .value v, _, rfl => .value v
  | .none, _, rfl => .null
  | .bool b, _, rfl => .boolean b
  | .double x, _, rfl => .double x
  | .text s, _, rfl => .string s
  | .bytes b, _, rfl => .bytes b
  | .byteArray b, _, rfl => .byteArray b
  | .key (.complete k), _, rfl => .key k
  | .entity e, _, rfl => .entity e
  | .int i, v, made => by
      obtain ⟨n, rfl, rfl⟩ := Value.ofDatum_int_eq_ok_iff.mp made
      exact .long n
  | .time t, v, made => by
      obtain ⟨moment, universal, rfl⟩ := Value.ofDatum_time_eq_ok_iff.mp made
      exact .time universal
  | .list items, v, made => by
      obtain ⟨_, all, rfl⟩ := Value.ofDatum_list_eq_ok_iff.mp made
      exact .list (Datum.wrapsAll_of_made items all)
  | .tuple items, v, made => by
      obtain ⟨_, all, rfl⟩ := Value.ofDatum_list_eq_ok_iff.mp made
      exact .tuple (Datum.wrapsAll_of_made items all)
  | .key (.incomplete _), _, made | .dict _, _, made | .object, _, made | .step _, _, made | .filter _, _, made
  | .projection _, _, made | .query _, _, made => nomatch made
termination_by structural d => d

theorem Datum.wrapsAll_of_made : (data : List Datum) → ∀ {items : List Element},
    valuesOf data = .ok (items.map .single) → Datum.WrapsAll data items
  | [], [], _ => .nil
  | d :: rest, items, made => by
      obtain ⟨v, first, made⟩ := bind_eq_ok_iff.mp made
      obtain ⟨values, all, same⟩ := bind_eq_ok_iff.mp made
      obtain ⟨x, more, rfl, rfl, rfl⟩ := List.map_eq_cons_iff.mp (Except.ok.inj same).symm
      exact .cons (Datum.wraps_of_made d first) (Datum.wrapsAll_of_made rest all)
termination_by structural data => data

end

/-- A datum becomes a value if it is one that this value stands for. -/
theorem Value.ofDatum_eq_ok_iff {d : Datum} {v : Value} : ofDatum d = .ok v ↔ d.Wraps v :=
  ⟨d.wraps_of_made, Datum.Wraps.made⟩

end EntityStore
