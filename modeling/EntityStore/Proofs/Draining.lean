import EntityStore.Proofs.Paging

set_option autoImplicit false

namespace EntityStore

variable {σ : Type}

/-- A request for a page and what came of it. -/
structure Fetch where
  token : Datum
  answer : Except Error QueryPage

namespace Fetch

/-- The pages that some requests brought. -/
def served (log : List Fetch) : List QueryPage := log.filterMap (·.answer.toOption)

theorem served_append (log more : List Fetch) : served (log ++ more) = served log ++ served more :=
  List.filterMap_append

/-- What holds of the requests in a log and of one more holds of all of them. -/
theorem forall_split_concat {P : List Fetch → Fetch → Prop} {log : List Fetch} {last : Fetch}
    (held : ∀ before f after, log = before ++ f :: after → P before f) (here : P log last) :
    ∀ before f after, log ++ [last] = before ++ f :: after → P before f := by
  intro before f after split
  rcases List.eq_nil_or_concat after with rfl | ⟨inner, final, rfl⟩
  · obtain ⟨rfl, same⟩ := List.append_inj' split rfl
    rw [← List.singleton_inj.mp same]
    exact here
  · rw [List.concat_eq_append, ← List.cons_append, ← List.append_assoc] at split
    exact held before f inner (List.append_inj' split rfl).1

end Fetch

/-- The results behind a request: a page that came takes the place of the one before it, and a failure leaves all as it
was. -/
def QueryResults.turn (r : QueryResults) (f : Fetch) : QueryResults :=
  match f.answer with
  | .ok page => { r with page, position := 0 }
  | .error _ => r

namespace QueryResults

theorem turn_of_page (r : QueryResults) {f : Fetch} {page : QueryPage} (brought : f.answer = .ok page) :
    r.turn f = { r with page, position := 0 } := by
  rw [turn, brought]

theorem turn_of_failure (r : QueryResults) {f : Fetch} {e : Error} (failure : f.answer = .error e) : r.turn f = r := by
  rw [turn, failure]

theorem turn_query (r : QueryResults) (f : Fetch) : (r.turn f).query = r.query ∧ (r.turn f).handle? = r.handle? := by
  unfold turn
  cases f.answer with
  | error e => exact ⟨rfl, rfl⟩
  | ok page => exact ⟨rfl, rfl⟩

theorem foldl_turn_query (r : QueryResults) (log : List Fetch) :
    (log.foldl turn r).query = r.query ∧ (log.foldl turn r).handle? = r.handle? := by
  induction log generalizing r with
  | nil => exact ⟨rfl, rfl⟩
  | cons f rest ih =>
      obtain ⟨query, handle⟩ := ih (r.turn f)
      obtain ⟨sameQuery, sameHandle⟩ := r.turn_query f
      exact ⟨query.trans sameQuery, handle.trans sameHandle⟩

end QueryResults

namespace Remote

/-- An action that leaves a log alone. -/
def beside {α : Type} (action : StateM σ α) : StateM (σ × List Fetch) α := fun (s, log) =>
  let (answer, next) := action s
  (answer, next, log)

/-- A remote together with a log of all requests for pages. -/
def recording (remote : Remote σ) : Remote (σ × List Fetch) where
  lookup keys handle? := beside (remote.lookup keys handle?)
  runQuery query handle? token := fun (s, log) =>
    let (answer, next) := remote.runQuery query handle? token s
    (answer, next, log ++ [⟨token, answer⟩])
  commit mutations handle? := beside (remote.commit mutations handle?)
  beginTransaction := beside remote.beginTransaction
  rollback h := beside (remote.rollback h)
  allocateIds keys := beside (remote.allocateIds keys)
  pagesLeft := fun (s, _) => remote.pagesLeft s

/-- A remote serves chains of pages: in some states a token leads to some pages, no more than the remote says can still
follow.  A request answers with the first of them, and the token of this page leads to the others, or it fails, and the
token leads to the same pages as before. -/
structure Serves (remote : Remote σ) (query : Query) (handle? : Option Handle)
    (ahead : σ → Option Datum → List QueryPage → Prop) : Prop where
  last {s : σ} {pages : List QueryPage} (leads : ahead s none pages) : pages = []
  more {s : σ} {token : Datum} {pages : List QueryPage} (leads : ahead s (some token) pages) : pages ≠ []
  served {s next : σ} {token : Datum} {page brought : QueryPage} {later : List QueryPage}
    (leads : ahead s (some token) (page :: later))
    (answered : remote.runQuery query handle? token s = (.ok brought, next)) :
    brought = page ∧ ahead next page.next? later
  failed {s next : σ} {token : Datum} {pages : List QueryPage} {e : Error} (leads : ahead s (some token) pages)
    (answered : remote.runQuery query handle? token s = (.error e, next)) : ahead next (some token) pages
  bound {s : σ} {token? : Option Datum} {pages : List QueryPage} (leads : ahead s token? pages) :
    pages.length ≤ remote.pagesLeft s

/-- Each page of a chain is asked for by the token of the one before it. -/
inductive Linked : Option Datum → List QueryPage → Prop where
  | last : Linked none []
  | more {token : Datum} {page : QueryPage} {later : List QueryPage} (further : Linked page.next? later) :
      Linked (some token) (page :: later)

/-- A remote that gives prepared answers to requests for pages, one after the other, and answers nothing else. -/
def prepared : Remote (List (Except Error QueryPage)) where
  lookup _ _ := return .error (.failure .argumentType)
  runQuery _ _ _ := fun
    | [] => (.error (.failure .argumentType), [])
    | answer :: rest => (answer, rest)
  commit _ _ := return .error (.failure .argumentType)
  beginTransaction := return ⟨""⟩
  rollback _ := return ()
  allocateIds _ := return .error (.failure .argumentType)
  pagesLeft := List.length

/-- Where the pages among the answers make a chain, they are served, whatever fails between them. -/
theorem serves_prepared (query : Query) (handle? : Option Handle) :
    prepared.Serves query handle? fun answers token? pages =>
      Linked token? pages ∧ answers.filterMap Except.toOption = pages where
  last leads := by
    cases leads.1
    rfl
  more leads := by
    cases leads.1
    exact List.cons_ne_nil _ _
  served {answers next token page brought later} leads answered := by
    obtain ⟨linked, pages⟩ := leads
    cases linked with
    | more further =>
        cases answers with
        | nil => cases pages
        | cons answer rest =>
            cases answered
            obtain ⟨rfl, rfl⟩ := List.cons.inj pages
            exact ⟨rfl, further, rfl⟩
  failed {answers next token pages e} leads answered := by
    obtain ⟨linked, brought⟩ := leads
    cases answers with
    | nil =>
        cases brought
        cases linked
    | cons answer rest =>
        cases answered
        exact ⟨linked, brought⟩
  bound {answers token? pages} leads := by
    rw [← leads.2]
    exact List.length_filterMap_le _ _

end Remote

namespace QueryResults

/-- The log goes unnoticed. -/
theorem advance_recording (remote : Remote σ) (rounds : Nat) (r : QueryResults) (s : σ) (log : List Fetch) :
    ∃ more, advance remote.recording rounds r (s, log) =
      ((advance remote rounds r s).1, (advance remote rounds r s).2, more) := by
  by_cases left : r.rest = []
  · cases token? : r.page.next? with
    | none =>
        rw [advance_of_last left token?, advance_of_last left token?]
        exact ⟨log, rfl⟩
    | some token =>
        cases rounds with
        | zero =>
            unfold advance
            split
            · exact ⟨log, rfl⟩
            · simp only [token?]
              exact ⟨log, rfl⟩
        | succ rounds =>
            rw [advance_of_token left token?, advance_of_token left token?]
            cases answered : remote.runQuery r.query r.handle? token s with
            | mk answer next =>
                simp only [Remote.recording, answered]
                cases answer with
                | error e => exact ⟨_, rfl⟩
                | ok page => exact advance_recording remote rounds _ next _
  · rw [advance_of_rest left, advance_of_rest left]
    exact ⟨log, rfl⟩

theorem hasNext_recording (remote : Remote σ) (r : QueryResults) (s : σ) (log : List Fetch) :
    ∃ more, r.hasNext remote.recording (s, log) = ((r.hasNext remote s).1, (r.hasNext remote s).2, more) :=
  advance_recording remote (remote.pagesLeft s) r s log

theorem next_recording (remote : Remote σ) (r : QueryResults) (s : σ) (log : List Fetch) :
    ∃ more, r.next remote.recording (s, log) = ((r.next remote s).1, (r.next remote s).2, more) := by
  obtain ⟨more, same⟩ := hasNext_recording remote r s log
  refine ⟨more, ?_⟩
  rw [next_eq, next_eq, same]
  rcases r.hasNext remote s with ⟨⟨results, outcome⟩, after⟩
  cases outcome with
  | error e => rfl
  | ok found =>
      dsimp only
      cases results.rest with
      | nil => rfl
      | cons row rest => rfl

end QueryResults

/-- The results of a query while they are read, the remote behind them, the requests so far, and the rows so far. -/
structure Draining (σ : Type) where
  results : QueryResults
  store : σ
  log : List Fetch
  rows : List Datum

namespace Draining

inductive Call where
  | hasNext | next

inductive Answer where
  | told (more : Bool)
  | row (d : Datum)
  | failed (e : Error)

def Answer.ofHasNext : Except Error Bool → Answer
  | .ok more => told more
  | .error e => failed e

def Answer.ofNext : Except Error Datum → Answer
  | .ok d => row d
  | .error e => failed e

/-- A call and what it answers. -/
def call (remote : Remote σ) (x : Draining σ) : Call → Answer × Draining σ
  | .hasNext =>
    let ((results, outcome), store, log) := x.results.hasNext remote.recording (x.store, x.log)
    (.ofHasNext outcome, ⟨results, store, log, x.rows⟩)
  | .next =>
    let ((results, outcome), store, log) := x.results.next remote.recording (x.store, x.log)
    (.ofNext outcome, ⟨results, store, log, x.rows ++ outcome.toOption.toList⟩)

def run (remote : Remote σ) (x : Draining σ) (calls : List Call) : Draining σ :=
  calls.foldl (fun y c => (y.call remote c).2) x

/-- Apart from the log, a call is what it is without one. -/
theorem call_unlogged (remote : Remote σ) (x : Draining σ) (c : Call) :
    ∃ log, x.call remote c =
      match c with
      | .hasNext =>
        let ((results, outcome), store) := x.results.hasNext remote x.store
        (.ofHasNext outcome, ⟨results, store, log, x.rows⟩)
      | .next =>
        let ((results, outcome), store) := x.results.next remote x.store
        (.ofNext outcome, ⟨results, store, log, x.rows ++ outcome.toOption.toList⟩) := by
  cases c with
  | hasNext =>
      obtain ⟨log, same⟩ := QueryResults.hasNext_recording remote x.results x.store x.log
      refine ⟨log, ?_⟩
      rw [call, same]
      rfl
  | next =>
      obtain ⟨log, same⟩ := QueryResults.next_recording remote x.results x.store x.log
      refine ⟨log, ?_⟩
      rw [call, same]
      rfl

/-- A page is asked for when nothing is left of the one before it. -/
structure Fetches (remote : Remote σ) (x : Draining σ) (f : Fetch) (y : Draining σ) : Prop where
  done : x.results.rest = []
  more : x.results.page.next? = some f.token
  answered : remote.runQuery x.results.query x.results.handle? f.token x.store = (f.answer, y.store)
  results : y.results = x.results.turn f
  log : y.log = x.log ++ [f]
  rows : y.rows = x.rows

/-- Pages are asked for until one of them has a row, the chain ends, or a request fails. -/
inductive Seeks (remote : Remote σ) : Draining σ → Except Error Bool → Draining σ → Prop where
  | found {x : Draining σ} (left : x.results.rest ≠ []) : Seeks remote x (.ok true) x
  | ended {x : Draining σ} (done : x.results.rest = []) (last : x.results.page.next? = none) :
      Seeks remote x (.ok false) x
  | failed {x y : Draining σ} {f : Fetch} {e : Error} (fetches : x.Fetches remote f y)
      (failure : f.answer = .error e) : Seeks remote x (.error e) y
  | turned {x y after : Draining σ} {f : Fetch} {page : QueryPage} {outcome : Except Error Bool}
      (fetches : x.Fetches remote f y) (brought : f.answer = .ok page) (further : Seeks remote y outcome after) :
      Seeks remote x outcome after

/-- The state of a draining: the pages of the chain are those that were served and those ahead, and the rows read and
those left on the page are the rows of the pages served. -/
structure Stands (ahead : σ → Option Datum → List QueryPage → Prop) (start : QueryResults) (pages : List QueryPage)
    (x : Draining σ) (later : List QueryPage) : Prop where
  chain : pages = Fetch.served x.log ++ later
  ahead : ahead x.store x.results.page.next? later
  rows : x.rows ++ x.results.rest = start.rest ++ (Fetch.served x.log).flatMap QueryPage.results
  turned : ∃ position, x.results = { x.log.foldl QueryResults.turn start with position }
  asked : ∀ before f after, x.log = before ++ f :: after →
    (before.foldl QueryResults.turn start).page.next? = some f.token

variable {remote : Remote σ} {ahead : σ → Option Datum → List QueryPage → Prop} {start : QueryResults}
  {pages later : List QueryPage} {x y after : Draining σ}

namespace Stands

theorem query_eq (stands : x.Stands ahead start pages later) :
    x.results.query = start.query ∧ x.results.handle? = start.handle? := by
  obtain ⟨position, same⟩ := stands.turned
  rw [same]
  exact start.foldl_turn_query x.log

theorem page_eq (stands : x.Stands ahead start pages later) :
    x.results.page = (x.log.foldl QueryResults.turn start).page := by
  obtain ⟨position, same⟩ := stands.turned
  rw [same]

/-- What is read and what is not make up all rows. -/
theorem all_eq (stands : x.Stands ahead start pages later) :
    x.rows ++ (x.results.rest ++ later.flatMap QueryPage.results) = start.rest ++ pages.flatMap QueryPage.results := by
  rw [← List.append_assoc, stands.rows, stands.chain, List.flatMap_append, List.append_assoc]

theorem rows_of_done (stands : x.Stands ahead start pages later) (done : x.results.rest = []) :
    x.rows = start.rest ++ (Fetch.served x.log).flatMap QueryPage.results := by
  rw [← stands.rows, done, List.append_nil]

/-- A request asks for the page after the last one served. -/
theorem asks (stands : x.Stands ahead start pages later) {f : Fetch} (fetches : x.Fetches remote f y) :
    ∀ before g after, y.log = before ++ g :: after →
      (before.foldl QueryResults.turn start).page.next? = some g.token := by
  rw [fetches.log]
  apply Fetch.forall_split_concat stands.asked
  rw [← stands.page_eq]
  exact fetches.more

/-- A page that comes is the first one ahead. -/
theorem fetched (serves : remote.Serves start.query start.handle? ahead) (stands : x.Stands ahead start pages later)
    {f : Fetch} {page : QueryPage} (fetches : x.Fetches remote f y) (brought : f.answer = .ok page) :
    ∃ further, later = page :: further ∧ y.Stands ahead start pages further := by
  have leads := stands.ahead
  have answered := fetches.answered
  rw [fetches.more] at leads
  rw [stands.query_eq.1, stands.query_eq.2, brought] at answered
  obtain ⟨first, further, rfl⟩ := List.exists_cons_of_ne_nil (serves.more leads)
  obtain ⟨rfl, onward⟩ := serves.served leads answered
  have results : y.results = { x.results with page, position := 0 } :=
    fetches.results.trans (x.results.turn_of_page brought)
  have served : Fetch.served y.log = Fetch.served x.log ++ [page] := by
    rw [fetches.log, Fetch.served_append]
    simp only [Fetch.served, List.filterMap_cons, List.filterMap_nil, brought, Except.toOption]
  refine ⟨further, rfl, ?_, ?_, ?_, ?_, stands.asks fetches⟩
  · rw [stands.chain, served, List.append_assoc, List.singleton_append]
  · rw [results]
    exact onward
  · rw [fetches.rows, results, served, List.flatMap_append, ← List.append_assoc, ← stands.rows_of_done fetches.done,
      List.flatMap_singleton]
    rfl
  · refine ⟨0, ?_⟩
    obtain ⟨position, same⟩ := stands.turned
    rw [results, fetches.log, List.foldl_concat, QueryResults.turn_of_page _ brought, same]

/-- A request that fails changes nothing but the log. -/
theorem unfetched (serves : remote.Serves start.query start.handle? ahead) (stands : x.Stands ahead start pages later)
    {f : Fetch} {e : Error} (fetches : x.Fetches remote f y) (failure : f.answer = .error e) :
    y.Stands ahead start pages later := by
  have leads := stands.ahead
  have answered := fetches.answered
  rw [fetches.more] at leads
  rw [stands.query_eq.1, stands.query_eq.2, failure] at answered
  have results : y.results = x.results := fetches.results.trans (x.results.turn_of_failure failure)
  have served : Fetch.served y.log = Fetch.served x.log := by
    rw [fetches.log, Fetch.served_append]
    simp only [Fetch.served, List.filterMap_cons, List.filterMap_nil, failure, Except.toOption, List.append_nil]
  refine ⟨?_, ?_, ?_, ?_, stands.asks fetches⟩
  · rw [served]
    exact stands.chain
  · rw [results, fetches.more]
    exact serves.failed leads answered
  · rw [fetches.rows, results, served]
    exact stands.rows
  · rw [results, fetches.log, List.foldl_concat, QueryResults.turn_of_failure _ failure]
    exact stands.turned

/-- A row of the page is read. -/
theorem read (stands : x.Stands ahead start pages later) {row : Datum} {more : List Datum}
    (left : x.results.rest = row :: more) :
    Stands ahead start pages
      ⟨{ x.results with position := x.results.position + 1 }, x.store, x.log, x.rows ++ [row]⟩ later where
  chain := stands.chain
  ahead := stands.ahead
  rows := by
    have tail : (QueryResults.mk x.results.query x.results.handle? x.results.page (x.results.position + 1)).rest =
        more := by
      have dropped := congrArg List.tail left
      rwa [QueryResults.rest, List.tail_drop] at dropped
    have read := stands.rows
    rw [left] at read
    rw [tail, List.append_assoc, List.singleton_append]
    exact read
  turned := by
    obtain ⟨position, same⟩ := stands.turned
    exact ⟨x.results.position + 1, by rw [same]⟩
  asked := stands.asked

end Stands

namespace Seeks

variable {outcome : Except Error Bool}

theorem stands (serves : remote.Serves start.query start.handle? ahead) (seeks : Seeks remote x outcome after)
    (before : x.Stands ahead start pages later) : ∃ further, after.Stands ahead start pages further := by
  induction seeks generalizing later with
  | found left => exact ⟨later, before⟩
  | ended done last => exact ⟨later, before⟩
  | failed fetches failure => exact ⟨later, before.unfetched serves fetches failure⟩
  | turned fetches brought further ih =>
      obtain ⟨rest, -, next⟩ := before.fetched serves fetches brought
      exact ih next

theorem rows_eq (seeks : Seeks remote x outcome after) : after.rows = x.rows := by
  induction seeks with
  | found left => rfl
  | ended done last => rfl
  | failed fetches failure => exact fetches.rows
  | turned fetches brought further ih => exact ih.trans fetches.rows

/-- Whenever a page is asked for, the rows of all pages served before it have been read. -/
theorem lazy (serves : remote.Serves start.query start.handle? ahead) (seeks : Seeks remote x outcome after)
    (stands : x.Stands ahead start pages later) {base : List Fetch} {rows : List Datum} (same : x.rows = rows)
    (held : ∀ before f rest, x.log = before ++ f :: rest → base <+: before →
      rows = start.rest ++ (Fetch.served before).flatMap QueryPage.results) :
    ∀ before f rest, after.log = before ++ f :: rest → base <+: before →
      rows = start.rest ++ (Fetch.served before).flatMap QueryPage.results := by
  induction seeks generalizing later with
  | found left => exact held
  | ended done last => exact held
  | failed fetches failure =>
      rw [fetches.log]
      apply Fetch.forall_split_concat held
      intro _
      exact same.symm.trans (stands.rows_of_done fetches.done)
  | turned fetches brought further ih =>
      obtain ⟨rest, -, next⟩ := stands.fetched serves fetches brought
      apply ih next (fetches.rows.trans same)
      rw [fetches.log]
      apply Fetch.forall_split_concat held
      intro _
      exact same.symm.trans (stands.rows_of_done fetches.done)

theorem log_prefix (seeks : Seeks remote x outcome after) : x.log <+: after.log := by
  induction seeks with
  | found left => exact List.prefix_rfl
  | ended done last => exact List.prefix_rfl
  | failed fetches failure => exact fetches.log ▸ List.prefix_append _ _
  | turned fetches brought further ih => exact (fetches.log ▸ List.prefix_append _ _).trans ih

theorem rest_of_true (seeks : Seeks remote x outcome after) (answer : outcome = .ok true) :
    after.results.rest ≠ [] := by
  induction seeks with
  | found left => exact left
  | ended done last => cases answer
  | failed fetches failure => cases answer
  | turned fetches brought further ih => exact ih answer

theorem last_of_false (seeks : Seeks remote x outcome after) (answer : outcome = .ok false) :
    after.results.rest = [] ∧ after.results.page.next? = none := by
  induction seeks with
  | found left => cases answer
  | ended done last => exact ⟨done, last⟩
  | failed fetches failure => cases answer
  | turned fetches brought further ih => exact ih answer

theorem done_of_error (seeks : Seeks remote x outcome after) {e : Error} (answer : outcome = .error e) :
    x.results.rest = [] := by
  cases seeks with
  | found left => cases answer
  | ended done last => exact done
  | failed fetches failure => exact fetches.done
  | turned fetches brought further => exact fetches.done

/-- The pages that came before a request failed had no rows, and the failure itself leaves the results alone, so that
the same request comes next. -/
theorem failure (seeks : Seeks remote x outcome after) {e : Error} (answer : outcome = .error e) :
    ∃ earlier token, after.log = x.log ++ earlier ++ [⟨token, .error e⟩] ∧
      (∀ f ∈ earlier, ∃ page, f.answer = .ok page ∧ page.results = []) ∧
      after.results = earlier.foldl QueryResults.turn x.results ∧
      after.results.rest = [] ∧ after.results.page.next? = some token := by
  induction seeks with
  | found left => cases answer
  | ended done last => cases answer
  | @failed x y f _ fetches failure =>
      cases answer
      have results : y.results = x.results := fetches.results.trans (x.results.turn_of_failure failure)
      obtain ⟨token, _⟩ := f
      cases failure
      refine ⟨[], token, ?_, List.forall_mem_nil _, fetches.results, ?_, ?_⟩
      · rw [List.append_nil]
        exact fetches.log
      · rw [results]
        exact fetches.done
      · rw [results]
        exact fetches.more
  | @turned x y after f page outcome fetches brought further ih =>
      obtain ⟨earlier, token, log, empty, results, again⟩ := ih answer
      have bare : page.results = [] := by
        have done := further.done_of_error answer
        rw [fetches.results, x.results.turn_of_page brought] at done
        exact done
      refine ⟨f :: earlier, token, ?_, List.forall_mem_cons.mpr ⟨⟨page, brought, bare⟩, empty⟩, ?_, again⟩
      · rw [log, fetches.log, List.append_assoc x.log, List.singleton_append]
      · rw [results, fetches.results, List.foldl_cons]

/-- One round for each page ahead is enough to find a row, the end or a failure. -/
theorem of_advance (serves : remote.Serves start.query start.handle? ahead) (rounds : Nat)
    {x : Draining σ} {later : List QueryPage} (stands : x.Stands ahead start pages later)
    (enough : later.length ≤ rounds) :
    let found := QueryResults.advance remote.recording rounds x.results (x.store, x.log)
    Seeks remote x found.1.2 ⟨found.1.1, found.2.1, found.2.2, x.rows⟩ := by
  by_cases left : x.results.rest = []
  · cases token? : x.results.page.next? with
    | none =>
        rw [QueryResults.advance_of_last left token?]
        exact .ended left token?
    | some token =>
        cases rounds with
        | zero =>
            have leads := stands.ahead
            rw [token?] at leads
            exact absurd (List.length_eq_zero_iff.mp (Nat.le_zero.mp enough)) (serves.more leads)
        | succ rounds =>
            rw [QueryResults.advance_of_token left token?]
            cases answered : remote.runQuery x.results.query x.results.handle? token x.store with
            | mk answer next =>
                let f : Fetch := ⟨token, answer⟩
                let y : Draining σ := ⟨x.results.turn f, next, x.log ++ [f], x.rows⟩
                have fetches : x.Fetches remote f y := ⟨left, token?, answered, rfl, rfl, rfl⟩
                simp only [Remote.recording, answered]
                cases answer with
                | error e => exact .failed fetches rfl
                | ok page =>
                    obtain ⟨further, rfl, onward⟩ := stands.fetched serves fetches rfl
                    exact .turned fetches rfl (of_advance serves rounds onward (Nat.le_of_succ_le_succ enough))
  · rw [QueryResults.advance_of_rest left]
    exact .found left

end Seeks

/-- Looking for a further row, with what it answers. -/
def sought (remote : Remote σ) (x : Draining σ) : Except Error Bool × Draining σ :=
  let found := x.results.hasNext remote.recording (x.store, x.log)
  (found.1.2, ⟨found.1.1, found.2.1, found.2.2, x.rows⟩)

theorem sought_eq (remote : Remote σ) (x : Draining σ) :
    x.sought remote =
      let found := QueryResults.advance remote.recording (remote.pagesLeft x.store) x.results (x.store, x.log)
      (found.1.2, ⟨found.1.1, found.2.1, found.2.2, x.rows⟩) := rfl

theorem seeks_sought (serves : remote.Serves start.query start.handle? ahead)
    (stands : x.Stands ahead start pages later) : Seeks remote x (x.sought remote).1 (x.sought remote).2 :=
  Seeks.of_advance serves _ stands (serves.bound stands.ahead)

theorem call_hasNext (remote : Remote σ) (x : Draining σ) :
    x.call remote .hasNext = (.ofHasNext (x.sought remote).1, (x.sought remote).2) := rfl

/-- The next row is looked for, and then read. -/
theorem call_next (remote : Remote σ) (x : Draining σ) :
    x.call remote .next =
      match x.sought remote with
      | (.error e, y) => (.failed e, y)
      | (.ok _, y) =>
        match y.results.rest with
        | [] => (.failed (.failure .exhausted), y)
        | row :: _ =>
          (.row row, ⟨{ y.results with position := y.results.position + 1 }, y.store, y.log, y.rows ++ [row]⟩) := by
  unfold call sought
  rw [QueryResults.next_eq]
  rcases x.results.hasNext remote.recording (x.store, x.log) with ⟨⟨results, outcome⟩, store, log⟩
  cases outcome with
  | error e =>
      dsimp only
      rw [show (Except.error e : Except Error Datum).toOption.toList = [] from rfl, List.append_nil]
      rfl
  | ok more =>
      dsimp only
      cases results.rest with
      | nil =>
          dsimp only
          rw [show (Except.error (.failure .exhausted) : Except Error Datum).toOption.toList = [] from rfl,
            List.append_nil]
          rfl
      | cons row rest => rfl

theorem sought_of_rest (remote : Remote σ) (left : x.results.rest ≠ []) : x.sought remote = (.ok true, x) := by
  rw [sought_eq, QueryResults.advance_of_rest left]

theorem sought_of_last (remote : Remote σ) (done : x.results.rest = []) (last : x.results.page.next? = none) :
    x.sought remote = (.ok false, x) := by
  rw [sought_eq, QueryResults.advance_of_last done last]

theorem run_of_unchanged (same : ∀ c, (x.call remote c).2 = x) (calls : List Call) : x.run remote calls = x := by
  induction calls with
  | nil => rfl
  | cons c rest ih =>
      calc x.run remote (c :: rest)
        _ = (x.call remote c).2.run remote rest := rfl
        _ = x := by rw [same, ih]

/-- The end: there is no further row, and whatever is called, nothing is asked for and nothing changes. -/
structure Final (remote : Remote σ) (x : Draining σ) : Prop where
  hasNext : x.call remote .hasNext = (.told false, x)
  next : x.call remote .next = (.failed (.failure .exhausted), x)
  stays (calls : List Call) : x.run remote calls = x

theorem final_of_last (remote : Remote σ) (done : x.results.rest = []) (last : x.results.page.next? = none) :
    x.Final remote := by
  have hasNext : x.call remote .hasNext = (.told false, x) := by
    rw [call_hasNext, sought_of_last remote done last]
    rfl
  have next : x.call remote .next = (.failed (.failure .exhausted), x) := by
    rw [call_next, sought_of_last remote done last]
    dsimp only
    rw [done]
  refine ⟨hasNext, next, run_of_unchanged ?_⟩
  intro c
  cases c with
  | hasNext => rw [hasNext]
  | next => rw [next]

/-- What comes of a call, where all the rows are given.  A further row is told of exactly if one is left, and it is told
of again when asked again; the row that is read is the one after those read before; and a request that fails ends the
call with nothing read and the results as they were when it was made, so that it is made again by the next call. -/
inductive Outcome (remote : Remote σ) (all : List Datum) (x : Draining σ) : Call → Answer → Draining σ → Prop where
  | found {after : Draining σ} (rows : after.rows = x.rows) (left : x.rows ≠ all)
      (again : after.call remote .hasNext = (.told true, after)) : Outcome remote all x .hasNext (.told true) after
  | ended {after : Draining σ} (rows : after.rows = x.rows) (read : x.rows = all) (final : after.Final remote) :
      Outcome remote all x .hasNext (.told false) after
  | row {after : Draining σ} {d : Datum} {further : List Datum} (ahead : all = x.rows ++ d :: further)
      (rows : after.rows = x.rows ++ [d]) : Outcome remote all x .next (.row d) after
  | exhausted {after : Draining σ} (rows : after.rows = x.rows) (read : x.rows = all) (final : after.Final remote) :
      Outcome remote all x .next (.failed (.failure .exhausted)) after
  | failed {after : Draining σ} {c : Call} {e : Error} {earlier : List Fetch} {token : Datum}
      (rows : after.rows = x.rows) (log : after.log = x.log ++ earlier ++ [⟨token, .error e⟩])
      (empty : ∀ f ∈ earlier, ∃ page, f.answer = .ok page ∧ page.results = [])
      (results : after.results = earlier.foldl QueryResults.turn x.results) (done : after.results.rest = [])
      (more : after.results.page.next? = some token) : Outcome remote all x c (.failed e) after

theorem Seeks.outcome_of_error {e : Error} (seeks : Seeks remote x (.error e) after) (all : List Datum) (c : Call) :
    Outcome remote all x c (.failed e) after := by
  obtain ⟨earlier, token, log, empty, results, done, more⟩ := seeks.failure rfl
  exact .failed seeks.rows_eq log empty results done more

/-- The requests of a call are made behind those before it, each when all rows of the pages served until then have been
read. -/
structure Lazy (start : QueryResults) (x after : Draining σ) : Prop where
  kept : x.log <+: after.log
  read : ∀ before f rest, after.log = before ++ f :: rest → x.log <+: before →
    x.rows = start.rest ++ (Fetch.served before).flatMap QueryPage.results

theorem Seeks.isLazy {outcome : Except Error Bool} (seeks : Seeks remote x outcome after)
    (serves : remote.Serves start.query start.handle? ahead) (stands : x.Stands ahead start pages later) :
    Lazy start x after where
  kept := seeks.log_prefix
  read := by
    apply seeks.lazy serves stands rfl
    -- Nothing in the log is behind the log.
    intro before f rest split inside
    have longer := inside.length_le
    rw [split, List.length_append, List.length_cons] at longer
    omega

namespace Stands

theorem ahead_of_rest (stands : x.Stands ahead start pages later) {row : Datum} {more : List Datum}
    (left : x.results.rest = row :: more) :
    ∃ further, start.rest ++ pages.flatMap QueryPage.results = x.rows ++ row :: further := by
  refine ⟨more ++ later.flatMap QueryPage.results, ?_⟩
  rw [← stands.all_eq, left, List.cons_append]

theorem unread (stands : x.Stands ahead start pages later) (left : x.results.rest ≠ []) :
    x.rows ≠ start.rest ++ pages.flatMap QueryPage.results := by
  obtain ⟨row, more, split⟩ := List.exists_cons_of_ne_nil left
  obtain ⟨further, all⟩ := stands.ahead_of_rest split
  rw [all]
  intro same
  exact absurd (List.self_eq_append_right.mp same) (List.cons_ne_nil row further)

theorem read_all (serves : remote.Serves start.query start.handle? ahead) (stands : x.Stands ahead start pages later)
    (done : x.results.rest = []) (last : x.results.page.next? = none) :
    x.rows = start.rest ++ pages.flatMap QueryPage.results := by
  have leads := stands.ahead
  rw [last] at leads
  rw [← stands.all_eq, done, serves.last leads, List.flatMap_nil, List.append_nil, List.append_nil]

/-- What it means that a further row was looked for. -/
theorem outcome_hasNext {outcome : Except Error Bool} (serves : remote.Serves start.query start.handle? ahead)
    (stands : y.Stands ahead start pages later) (seeks : Seeks remote x outcome y) :
    Outcome remote (start.rest ++ pages.flatMap QueryPage.results) x .hasNext (.ofHasNext outcome) y := by
  have rows := seeks.rows_eq
  cases outcome with
  | error e => exact seeks.outcome_of_error _ _
  | ok more =>
      cases more with
      | true =>
          have left := seeks.rest_of_true rfl
          have again : y.call remote .hasNext = (.told true, y) := by
            rw [call_hasNext, sought_of_rest remote left]
            rfl
          exact .found rows (rows ▸ stands.unread left) again
      | false =>
          obtain ⟨done, last⟩ := seeks.last_of_false rfl
          exact .ended rows (rows ▸ stands.read_all serves done last) (final_of_last remote done last)

/-- What a call does, from a state in which the rows read are those of the pages up to a place. -/
theorem call (serves : remote.Serves start.query start.handle? ahead) (stands : x.Stands ahead start pages later)
    (c : Call) :
    (∃ further, (x.call remote c).2.Stands ahead start pages further) ∧ Lazy start x (x.call remote c).2 ∧
      Outcome remote (start.rest ++ pages.flatMap QueryPage.results) x c (x.call remote c).1 (x.call remote c).2 := by
  have seeks := seeks_sought serves stands
  obtain ⟨further, next⟩ := seeks.stands serves stands
  have lazy := seeks.isLazy serves stands
  have rows := seeks.rows_eq
  have looked := next.outcome_hasNext serves seeks
  have hasNext := x.call_hasNext remote
  have reads := x.call_next remote
  generalize x.sought remote = found at seeks next lazy rows looked hasNext reads
  obtain ⟨outcome, y⟩ := found
  cases c with
  | hasNext =>
      rw [hasNext]
      exact ⟨⟨further, next⟩, lazy, looked⟩
  | next =>
      rw [reads]
      cases outcome with
      | error e => exact ⟨⟨further, next⟩, lazy, seeks.outcome_of_error _ _⟩
      | ok more =>
          cases left : y.results.rest with
          | nil =>
              cases more with
              | true => exact absurd left (seeks.rest_of_true rfl)
              | false =>
                  obtain ⟨done, last⟩ := seeks.last_of_false rfl
                  dsimp only
                  rw [left]
                  exact ⟨⟨further, next⟩, lazy,
                    .exhausted rows (rows ▸ next.read_all serves done last) (final_of_last remote done last)⟩
          | cons row rest =>
              obtain ⟨ahead, all⟩ := next.ahead_of_rest left
              rw [rows] at all
              dsimp only
              rw [left]
              exact ⟨⟨further, next.read left⟩, ⟨lazy.kept, lazy.read⟩, .row all (congrArg (· ++ [row]) rows)⟩

/-- A results object that nothing is read of stands at the start of its chain. -/
theorem begins {s : σ} (leads : ahead s start.page.next? pages) :
    Stands ahead start pages ⟨start, s, [], []⟩ pages where
  chain := rfl
  ahead := leads
  rows := (List.append_nil _).symm
  turned := ⟨start.position, rfl⟩
  asked _ _ _ split := absurd split.symm (List.append_ne_nil_of_right_ne_nil _ (List.cons_ne_nil _ _))

theorem run (serves : remote.Serves start.query start.handle? ahead) (stands : x.Stands ahead start pages later)
    (calls : List Call) : ∃ further, (x.run remote calls).Stands ahead start pages further := by
  induction calls generalizing x later with
  | nil => exact ⟨later, stands⟩
  | cons c rest ih =>
      obtain ⟨⟨further, next⟩, -⟩ := stands.call serves c
      exact ih next

end Stands

/-- Whatever is called, the rows read are the first ones of the chain of pages, each page is served once, and further
pages are asked for only when the rows of those served before have been read. -/
theorem rows_of_chain {query : Query} {handle? : Option Handle} (serves : remote.Serves query handle? ahead)
    {first : QueryPage} {s : σ} (leads : ahead s first.next? pages) (calls : List Call) :
    let all := (first :: pages).flatMap QueryPage.results
    let begun : QueryResults := ⟨query, handle?, first, 0⟩
    let x := run remote ⟨begun, s, [], []⟩ calls
    x.rows <+: all ∧ Fetch.served x.log <+: pages ∧
      x.rows ++ x.results.rest = (first :: Fetch.served x.log).flatMap QueryPage.results ∧
      (∃ position, x.results = { x.log.foldl QueryResults.turn begun with position }) ∧
      (∀ before f after, x.log = before ++ f :: after →
        (before.foldl QueryResults.turn begun).page.next? = some f.token) ∧
      ∀ c, Lazy begun x (x.call remote c).2 ∧
        Outcome remote all x c (x.call remote c).1 (x.call remote c).2 := by
  intro all begun x
  have begins : Stands ahead begun pages ⟨begun, s, [], []⟩ pages := .begins leads
  obtain ⟨later, stands⟩ := begins.run serves calls
  refine ⟨⟨_, stands.all_eq⟩, ⟨_, stands.chain.symm⟩, stands.rows, stands.turned, stands.asked, ?_⟩
  intro c
  exact (stands.call serves c).2

/-- A page without rows is passed over, two requests fail and are made again, and the rows are read in order. -/
theorem rows_of_chain_with_failures :
    let page (rows : List Datum) (next? : Option Datum) : QueryPage := ⟨rows, .full, next?⟩
    let first := page [.int 1] (some (.text "a"))
    let empty := page [] (some (.text "b"))
    let final := page [.int 2, .int 3] none
    let answers : List (Except Error QueryPage) :=
      [.error (.failure .argumentType), .ok empty, .error (.failure .argumentType), .ok final]
    let begun : QueryResults := ⟨.structured ⟨.full, none, none, none, [], [], [], none, 0⟩, none, first, 0⟩
    let x := run Remote.prepared ⟨begun, answers, [], []⟩ [.next, .hasNext, .next, .next]
    let all := [first, empty, final].flatMap QueryPage.results
    x.rows = [.int 1, .int 2] ∧ x.rows <+: all ∧ Fetch.served x.log = [empty, final] ∧
      ∀ c, Lazy begun x (x.call Remote.prepared c).2 ∧
        Outcome Remote.prepared all x c (x.call Remote.prepared c).1 (x.call Remote.prepared c).2 := by
  intro page first empty final answers begun x all
  have serves := Remote.serves_prepared begun.query begun.handle?
  have leads : Remote.Linked first.next? [empty, final] ∧ answers.filterMap Except.toOption = [empty, final] :=
    ⟨.more (.more .last), rfl⟩
  obtain ⟨read, -, -, -, -, calls⟩ := rows_of_chain serves leads [.next, .hasNext, .next, .next]
  have rows : x.rows = [.int 1, .int 2] := by
    subst x begun answers final empty first page
    rfl
  have served : Fetch.served x.log = [empty, final] := by
    subst x begun answers final empty first page
    rfl
  exact ⟨rows, read, served, calls⟩

end Draining

end EntityStore
