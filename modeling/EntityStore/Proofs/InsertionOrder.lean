import EntityStore.Proofs.EntityDrafts

set_option autoImplicit false

namespace EntityStore

open Drafting

namespace EntityCall

/-- What a call says about a name: that it is bound to a value from now on, or that it is not bound any more. -/
inductive Settles (name : String) : EntityCall → Option Value → Prop where
  | bound {c : EntityCall} {v : Value} (binds : c.Binds name v) : Settles name c (some v)
  | gone {c : EntityCall} (drops : c.Drops name) : Settles name c none

theorem Settles.unique {name : String} {c : EntityCall} {x y : Option Value} (settles : Settles name c x)
    (too : Settles name c y) : x = y := by
  cases settles with
  | bound binds => cases too with
    | bound too => exact congrArg some (binds.unique too).2
    | gone drops => exact absurd drops binds.not_drops
  | gone drops => cases too with
    | bound binds => exact absurd drops binds.not_drops
    | gone => rfl

end EntityCall

section Births

variable {seed : Properties} {calls : List EntityCall} {c : EntityCall} {name other : String} {place : Nat}

/-- Whether a name is not bound after some calls: the last that was said about it is that it is gone, or it was not
bound at the start and nothing was said about it. -/
def Absent (seed : Properties) (calls : List EntityCall) (name : String) : Prop :=
  ∃ later, LastGiven (EntityCall.Settles name) (seed.at? name) calls none later

/-- Whether a name was bound first at a place, and not dropped since.  The bindings at the start have the first places,
and the calls come after them. -/
inductive Born (seed : Properties) (calls : List EntityCall) (name : String) : Nat → Prop where
  | seed {place : Nat} (bound : seed.names[place]? = some name) (kept : ∀ c ∈ calls, ¬ c.Drops name) :
      Born seed calls name place
  | call {before after : List EntityCall} {c : EntityCall} {v : Value} (split : calls = before ++ c :: after)
      (binds : c.Binds name v) (absent : Absent seed before name) (kept : ∀ c ∈ after, ¬ c.Drops name) :
      Born seed calls name (seed.names.length + before.length)

theorem born_nil_iff : Born seed [] name place ↔ seed.names[place]? = some name := by
  constructor
  · rintro (bound | split)
    · assumption
    · exact absurd split.symm (List.append_ne_nil_of_right_ne_nil _ (List.cons_ne_nil _ _))
  · intro bound
    exact .seed bound fun _ member => absurd member List.not_mem_nil

theorem Born.lt (born : Born seed calls name place) : place < seed.names.length + calls.length := by
  cases born with
  | seed bound =>
      obtain ⟨within, -⟩ := List.getElem?_eq_some_iff.mp bound
      omega
  | call split =>
      rw [split, List.length_append, List.length_cons]
      omega

/-- A further call keeps the place of a name that it does not drop, and gives one to a name that it binds and that has
none. -/
theorem born_concat_iff :
    Born seed (calls ++ [c]) name place ↔
      Born seed calls name place ∧ ¬ c.Drops name ∨
        place = seed.names.length + calls.length ∧ (∃ v, c.Binds name v) ∧ Absent seed calls name := by
  constructor
  · intro born
    cases born with
    | seed bound kept =>
        obtain ⟨earlier, here⟩ := List.forall_mem_append.mp kept
        exact .inl ⟨.seed bound earlier, here c List.mem_cons_self⟩
    | @call before after last v split binds absent kept =>
        rcases split_concat split with ⟨rfl, rfl, rfl⟩ | ⟨between, rfl, front⟩
        · exact .inr ⟨rfl, ⟨v, binds⟩, absent⟩
        · obtain ⟨earlier, here⟩ := List.forall_mem_append.mp kept
          exact .inl ⟨.call front binds absent earlier, here c List.mem_cons_self⟩
  · rintro (⟨born, here⟩ | ⟨rfl, ⟨v, binds⟩, absent⟩)
    · cases born with
      | seed bound kept => exact .seed bound (List.forall_mem_append.mpr ⟨kept, List.forall_mem_singleton.mpr here⟩)
      | call split binds absent kept =>
          refine .call ?_ binds absent (List.forall_mem_append.mpr ⟨kept, List.forall_mem_singleton.mpr here⟩)
          rw [split, List.append_assoc]
          rfl
    · exact .call rfl binds absent fun _ member => absurd member List.not_mem_nil

/-- Whether names are those that are bound, in the order of their places. -/
structure Listed (seed : Properties) (calls : List EntityCall) (names : List String) : Prop where
  distinct : names.Nodup
  member : ∀ name, name ∈ names ↔ ∃ place, Born seed calls name place
  order : names.Pairwise fun x y => ∀ p q, Born seed calls x p → Born seed calls y q → p < q

theorem listed_seed (distinct : seed.names.Nodup) : Listed seed [] seed.names where
  distinct := distinct
  member name := by
    simp only [born_nil_iff]
    exact List.mem_iff_getElem?
  order := by
    refine List.pairwise_iff_getElem.mpr fun i j within _ less p q first second => ?_
    rw [born_nil_iff] at first second
    have here : i = p := (List.getElem?_inj within distinct).mp ((List.getElem?_eq_getElem within).trans first.symm)
    have there : j = q :=
      (List.getElem?_inj ‹_› distinct).mp ((List.getElem?_eq_getElem ‹_›).trans second.symm)
    omega

variable {names : List String}

/-- Where a call binds nothing, the names that it does not drop stay in their places. -/
theorem Listed.dropping (listed : Listed seed calls names) (unbound : ∀ name v, ¬ c.Binds name v) {left : List String}
    (kept : left.Sublist names) (member : ∀ name, name ∈ left ↔ name ∈ names ∧ ¬ c.Drops name) :
    Listed seed (calls ++ [c]) left := by
  have born (name : String) (place : Nat) :
      Born seed (calls ++ [c]) name place ↔ Born seed calls name place ∧ ¬ c.Drops name := by
    rw [born_concat_iff, or_iff_left]
    rintro ⟨-, ⟨v, binds⟩, -⟩
    exact unbound name v binds
  refine ⟨kept.nodup listed.distinct, fun name => ?_, ?_⟩
  · simp only [member, listed.member, born, exists_and_right]
  · refine (listed.order.sublist kept).imp fun {x y} order p q first second => ?_
    exact order p q ((born x p).mp first).1 ((born y q).mp second).1

/-- A name that is bound keeps its place if it has one, and else it comes last. -/
theorem Listed.binding (listed : Listed seed calls names) {v : Value} (binds : c.Binds name v)
    (absent : Absent seed calls name ↔ name ∉ names) :
    Listed seed (calls ++ [c]) (if name ∈ names then names else names ++ [name]) := by
  have born (x : String) (place : Nat) : Born seed (calls ++ [c]) x place ↔ Born seed calls x place ∨
      place = seed.names.length + calls.length ∧ x = name ∧ name ∉ names := by
    rw [born_concat_iff, and_iff_left binds.not_drops]
    refine or_congr_right (and_congr_right fun _ => ?_)
    constructor
    · rintro ⟨⟨w, too⟩, gone⟩
      obtain rfl := (too.unique binds).1
      exact ⟨rfl, absent.mp gone⟩
    · rintro ⟨rfl, new⟩
      exact ⟨⟨v, binds⟩, absent.mpr new⟩
  -- A name with a place is not bound anew; one without gets the place of this call, which is behind all others.
  by_cases known : name ∈ names
  · rw [if_pos known]
    have same (x : String) (place : Nat) : Born seed (calls ++ [c]) x place ↔ Born seed calls x place := by
      rw [born, or_iff_left fun new => new.2.2 known]
    refine ⟨listed.distinct, fun x => ?_, ?_⟩
    · simp only [same, listed.member]
    · simpa only [same] using listed.order
  · rw [if_neg known]
    have old {x : String} {place : Nat} (listedHere : x ∈ names) (here : Born seed (calls ++ [c]) x place) :
        Born seed calls x place :=
      ((born x place).mp here).resolve_right fun new => known (new.2.1 ▸ listedHere)
    refine ⟨?_, fun x => ?_, List.pairwise_append.mpr ⟨?_, List.pairwise_singleton _ _, ?_⟩⟩
    · exact List.concat_eq_append ▸ listed.distinct.concat known
    · rw [List.mem_append, List.mem_singleton, listed.member]
      simp only [born]
      constructor
      · rintro (⟨place, here⟩ | rfl)
        · exact ⟨place, .inl here⟩
        · exact ⟨_, .inr ⟨rfl, rfl, known⟩⟩
      · rintro ⟨place, here | ⟨-, same, -⟩⟩
        · exact .inl ⟨place, here⟩
        · exact .inr same
    · refine listed.order.imp_of_mem fun left right order p q first second => ?_
      exact order p q (old left first) (old right second)
    · intro x left y last p q first second
      rw [List.mem_singleton.mp last, born] at second
      have unborn : ¬ Born seed calls name q := fun here => known ((listed.member name).mpr ⟨q, here⟩)
      rw [(second.resolve_left unborn).1]
      exact (old left first).lt

end Births

namespace EntityDraft

section Turn

variable {d after : EntityDraft} {c : EntityCall} {result : Except Error (Option AnyEntity)} {name : String}

/-- A call that says something about a name leaves it so. -/
theorem Turns.value_settled {x : Option Value} (turn : Turns d c result after) (settles : c.Settles name x) :
    after.properties.at? name = x := by
  cases turn with
  | bound binds => cases settles with
    | bound too =>
        obtain ⟨rfl, rfl⟩ := binds.unique too
        exact Bindings.at?_put_self ..
    | gone drops => exact absurd drops binds.not_drops
  | removed => cases settles with
    | bound binds => cases binds
    | gone drops =>
        cases drops
        exact Bindings.at?_remove_self ..
  | cleared => cases settles with
    | bound binds => cases binds
    | gone => rfl
  | missed unnamed => cases settles with
    | bound binds => cases binds
    | gone drops =>
        cases drops
        cases unnamed
  | refused _ _ binds drops => cases settles with
    | bound too => exact absurd too (binds _ _)
    | gone too => exact absurd too (drops _)
  | rekeyed | built => cases settles with
    | bound binds => cases binds
    | gone drops => cases drops

/-- A call that says nothing about a name leaves it as it was. -/
theorem Turns.value_kept (turn : Turns d c result after) (silent : ∀ x, ¬ c.Settles name x) :
    after.properties.at? name = d.properties.at? name := by
  cases turn with
  | @bound _ other v binds =>
      have apart : other ≠ name := by
        rintro rfl
        exact silent _ (.bound binds)
      exact Bindings.at?_put_of_ne _ _ apart
  | removed other =>
      have apart : other ≠ name := by
        rintro rfl
        exact silent _ (.gone (.remove _))
      exact Bindings.at?_remove_of_ne _ apart
  | cleared => exact absurd (.gone (.clear name)) (silent none)
  | rekeyed | missed | built | refused => rfl

/-- Names stay texts that are not empty. -/
theorem Turns.named (turn : Turns d c result after) (named : "" ∉ d.properties.names) :
    "" ∉ after.properties.names := by
  cases turn with
  | bound binds =>
      rw [binding, Bindings.mem_names_put]
      rintro (empty | old)
      · exact binds.named empty.symm
      · exact named old
  | removed other =>
      rw [Bindings.names_remove]
      exact fun old => named (List.mem_of_mem_filter old)
  | cleared => exact List.not_mem_nil
  | rekeyed | missed | built | refused => exact named

theorem Turns.listed {seed : Properties} {calls : List EntityCall} (turn : Turns d c result after)
    (absent : ∀ name, Absent seed calls name ↔ name ∉ d.properties.names)
    (listed : Listed seed calls d.properties.names) : Listed seed (calls ++ [c]) after.properties.names := by
  cases turn with
  | bound binds =>
      rw [binding, Bindings.names_put]
      exact listed.binding binds (absent _)
  | removed other =>
      rw [Bindings.names_remove]
      refine listed.dropping (by nofun) List.filter_sublist fun name => ?_
      rw [List.mem_filter, decide_eq_true_iff]
      refine and_congr_right fun _ => not_congr ⟨?_, ?_⟩
      · rintro rfl
        exact .remove _
      · rintro ⟨⟩
        rfl
  | cleared =>
      refine listed.dropping (by nofun) (List.nil_sublist _) fun name => ?_
      exact iff_of_false List.not_mem_nil fun kept => kept.2 (.clear name)
  | missed unnamed =>
      refine listed.dropping (by nofun) (List.Sublist.refl _) fun name => (and_iff_left fun drops => ?_).symm
      cases drops
      cases unnamed
  | refused _ _ binds drops =>
      exact listed.dropping binds (List.Sublist.refl _) fun name => (and_iff_left (drops name)).symm
  | rekeyed | built =>
      exact listed.dropping (by nofun) (List.Sublist.refl _) fun name => (and_iff_left nofun).symm

end Turn

section Run

variable (seed : EntityDraft) (calls : List EntityCall)

/-- Under a name stands what was last said about it. -/
theorem lastGiven_value (name : String) :
    ∃ later, LastGiven (EntityCall.Settles name) (seed.properties.at? name) calls
      ((left call seed calls).properties.at? name) later :=
  lastGiven_kept (fun d : EntityDraft => d.properties.at? name)
    (fun d c _ settles => (turns d c).value_settled settles)
    (fun d c silent => (turns d c).value_kept silent) seed calls

theorem absent_iff (name : String) :
    Absent seed.properties calls name ↔ name ∉ (left call seed calls).properties.names := by
  rw [← Bindings.at?_eq_none_iff]
  obtain ⟨later, given⟩ := lastGiven_value seed calls name
  constructor
  · rintro ⟨_, gone⟩
    exact given.unique (fun _ _ _ settles too => settles.unique too) gone
  · intro unbound
    exact ⟨later, unbound ▸ given⟩

theorem listed_left (distinct : seed.properties.names.Nodup) :
    Listed seed.properties calls (left call seed calls).properties.names := by
  induction calls using List.reverseRecOn with
  | nil => exact listed_seed distinct
  | append_singleton calls c ih =>
      rw [left_concat]
      exact (turns _ c).listed (absent_iff seed calls) ih

end Run

theorem form_of_start {form : EntityForm} {source : Datum} {seed : EntityDraft}
    (started : start form source = .ok seed) : seed.form = form := by
  cases source <;> cases started <;> rfl

/-- Whether a draft is what calls have made of another one. -/
structure Follows (seed : EntityDraft) (calls : List EntityCall) (d : EntityDraft) : Prop where
  form : d.form = seed.form
  key : ∃ later, LastGiven (fun c k => c = EntityCall.key (.key k)) seed.key calls d.key later
  value : ∀ name, ∃ later,
    LastGiven (EntityCall.Settles name) (seed.properties.at? name) calls (d.properties.at? name) later
  names : seed.properties.names.Nodup → Listed seed.properties calls d.properties.names
  named : "" ∉ seed.properties.names → "" ∉ d.properties.names

theorem follows_left (seed : EntityDraft) (calls : List EntityCall) : Follows seed calls (left call seed calls) where
  form := left_induction (P := fun d => d.form = seed.form) call rfl (fun d c => (turns d c).form_eq.trans) calls
  key := by
    refine lastGiven_kept EntityDraft.key ?_ (fun d c other => (turns d c).key_kept other) seed calls
    rintro d _ k rfl
    rfl
  value := lastGiven_value seed calls
  names := listed_left seed calls
  named named :=
    left_induction (P := fun d => "" ∉ d.properties.names) call named (fun d c => (turns d c).named) calls

/-- A draft of an entity is a map that keeps the order of binding: calls that fail leave it as it was, the last binding
of a name counts, and what is built has its key and properties, whatever is called later. -/
theorem insertion_ordered {form : EntityForm} {source : Datum} {seed : EntityDraft}
    (started : start form source = .ok seed) (calls : List EntityCall) :
    let d := left call seed calls
    Follows seed calls d ∧
      (∀ c e, answer call d c = .error e → next call d c = d) ∧
      (∀ c, (∀ x, c ≠ .remove x) → c ≠ .build →
        (answer call d c = .ok none ↔ (∃ name v, c.Binds name v) ∨ c = .clear ∨ ∃ k, c = .key (.key k))) ∧
      (∀ k, next call d (.key (.key k)) = { d with key := k }) ∧
      (∀ e, d.build = .ok e ↔ e.form = form ∧ e.key = d.key ∧ e.properties = d.properties) ∧
      ((∃ e, d.build = .ok e) ↔ form = .draft ∨ d.key.isComplete = true) ∧
      (∀ e, source = .entity e → e.form = form → seed.build = .ok e) ∧
      next call d .build = d ∧
      ∀ more, (answers call seed (calls ++ .build :: more))[calls.length]? = some (some <$> d.build) := by
  intro d
  have follows : Follows seed calls d := follows_left seed calls
  have formed : d.form = form := follows.form.trans (form_of_start started)
  have built : (call .build).perform d = (some <$> d.build, d) := perform_making d build
  refine ⟨follows, fun c e => (turns d c).of_error, fun c => (turns d c).quiet_iff, fun _ => rfl, fun e => ?_, ?_,
    ?_, congrArg Prod.snd built, fun more => ?_⟩
  · rw [build_eq_ok_iff, formed]
  · rw [exists_build_iff, formed]
  · rintro e rfl same
    cases started
    exact build_eq_ok_iff.mpr ⟨same, rfl, rfl⟩
  · exact (answers_at call _ calls _ more).trans (congrArg (some ·.1) built)

/-- A title is bound again after a note, and a note again after it was dropped: the title stands first with its new
value, and the note last. -/
theorem insertion_ordered_of_task :
    let task : AnyKey := .incomplete ⟨⟨"app", by decide⟩, none, [], ⟨"Task", by decide⟩⟩
    let calls : List EntityCall :=
      [.set (.text "title") (.text "a") [], .set (.text "note") (.int 1) [.bool true],
        .set (.text "done") (.bool false) [], .set (.text "title") (.text "b") [], .remove (.text "note"),
        .setNull (.text "note")]
    let properties : Properties :=
      [("title", .ofScalar (.string "b")), ("done", .ofScalar (.boolean false)), ("note", .ofScalar .null)]
    let d := left call ⟨.draft, task, []⟩ calls
    start .draft (.key task) = .ok ⟨.draft, task, []⟩ ∧ d.build = .ok (.draft task properties) ∧
      answer call d (.set (.text "") .none []) = .error EntityFault.propertyName.error ∧
      next call d (.set (.text "") .none []) = d ∧ d.properties.names = ["title", "done", "note"] ∧
      (∃ later, LastGiven (EntityCall.Settles "title") none calls (some (.ofScalar (.string "b"))) later) ∧
      ∀ p q, Born [] calls "title" p → Born [] calls "note" q → p < q := by
  intro task calls properties d
  have started : start .draft (.key task) = .ok ⟨.draft, task, []⟩ := rfl
  obtain ⟨follows, kept, -⟩ := insertion_ordered started calls
  have failed : answer call d (.set (.text "") .none []) = .error EntityFault.propertyName.error := rfl
  refine ⟨started, rfl, failed, kept _ _ failed, rfl, ?_, ?_⟩
  · exact follows.value "title"
  · have order : ["title", "done", "note"].Pairwise _ := (follows.names List.nodup_nil).order
    exact (List.pairwise_cons.mp order).1 "note" (by decide)

end EntityDraft

end EntityStore
