import Mathlib.Data.List.DropRight
import Rulebook.Http.Exchange
import Rulebook.Proofs.Journal

/-!
# What requests do

A request to a server in memory is answered in one of seven ways, and each of them says both
what the response is and what becomes of the service (`Http.Responds`).  The cases follow the
routes: a request that no route takes, be it that the path is unknown or that the method is another
one, the health of the server, a failure, which all routes below `/api` have in common, data that is
only told, a rule that is kept, a verdict, and the removal of all rules.

What a client may rely on is read off these cases (`Http.Orderly`).  A request to a route
below `/api` always gets an envelope.  A failure changes nothing, and a success does what is
written down for its route (`Http.Route.Effect`).  So the rules change where the response says
so and nowhere else, and the journal grows by one entry behind a verdict at most.

Behind a whole run the rules are known to whoever has seen all exchanges
(`exchanges_of_run`).
-/

namespace Rulebook

open Http (Route)

/-! ## Routes -/

theorem Http.Route.path_injective : Function.Injective Route.path := by
  intro r r' h
  revert h
  cases r <;> cases r' <;> decide

theorem Http.Route.ofPath?_eq_some_iff {path : String} {route : Route} :
    Route.ofPath? path = some route ↔ path = route.path := by
  constructor
  · intro h
    unfold Route.ofPath? at h
    have hpath := List.find?_some h
    exact (eq_of_beq hpath).symm
  · rintro rfl
    cases route <;> decide

/-- A request is about one route only. -/
theorem HttpRequest.IsTo.unique {request : HttpRequest} {r r' : Route} (h : request.IsTo r)
    (h' : request.IsTo r') : r = r' :=
  Route.path_injective (h.1.symm.trans h'.1)

/-! ## Envelopes -/

namespace HttpResponse

@[simp] theorem isSuccess_ofData (j data : Json) : (ofData j).IsSuccess data ↔ j = data := by
  simp [ofData, ofJson, Envelope.ok, Envelope.toJson, IsSuccess]

@[simp] theorem not_isSuccess_ofError (e : ServiceError) (data : Json) :
    ¬ (ofError e).IsSuccess data := by
  simp [ofError, ofJson, Envelope.failure, Envelope.toJson, IsSuccess]

theorem not_isFailure_of_isSuccess {response : HttpResponse} {data : Json}
    (h : response.IsSuccess data) (message : String) : ¬ response.IsFailure message := by
  intro h'
  have hbody := h.2.2.symm.trans h'.2.2
  simp at hbody

@[simp] theorem isFailure_ofError (e : ServiceError) (message : String) :
    (ofError e).IsFailure message ↔ e.message = message := by
  simp [ofError, ofJson, Envelope.failure, Envelope.toJson, IsFailure]

end HttpResponse

/-! ## What a request does -/

namespace Http

/-- How a request is answered, and what becomes of the service. -/
inductive Responds (s : Service MemoryStore) (request : HttpRequest) :
    HttpResponse → Service MemoryStore → Prop where
  /-- No route takes the request, or only what goes before a body is asked for. -/
  | bare {response} : (∀ route, ¬ request.IsTo route) → response.body = none →
      Responds s request response s
  /-- The health of the server. -/
  | health : request.IsTo .health → Responds s request Http.health s
  /-- A failure below `/api`. -/
  | failed {route} (e : ServiceError) : request.IsTo route → route ≠ .health →
      Responds s request (.ofError e) s
  /-- Data that is told. -/
  | told {route} (data : Json) : request.IsTo route → route = .list ∨ route = .combine →
      Responds s request (.ofData data) s
  /-- A rule that is kept. -/
  | kept (rule : Rule) : request.IsTo .create →
      Responds s request (.ofData rule.toJson) { s with store := s.store.save rule }
  /-- A verdict, which is noted. -/
  | judged (e : Evaluation) : request.IsTo .evaluate →
      Responds s request (.ofData (.bool e.result)) (s.note e)
  /-- The removal of all rules. -/
  | cleaned (data : Json) : request.IsTo .clean →
      Responds s request (.ofData data) { s with store := s.store.clear }

namespace Responds

variable {s : Service MemoryStore} {request : HttpRequest}

theorem list (h : request.IsTo .list) : Responds s request (Http.list s) s :=
  .told _ h (.inl rfl)

theorem create (h : request.IsTo .create) :
    Responds s request (Http.create s request).1 (Http.create s request).2 := by
  unfold Http.create
  cases payload NewRule.reader request with
  | error e => exact .failed e h (by decide)
  | ok new =>
      simp only
      obtain ⟨e, hcreate⟩ | ⟨rule, hcreate⟩ := s.create_cases new.id new.expression
      · rw [hcreate]
        exact .failed e h (by decide)
      · rw [hcreate]
        exact .kept rule h

theorem combine (h : request.IsTo .combine) :
    Responds s request (Http.combine s request) s := by
  unfold Http.combine
  cases payload RuleList.reader request with
  | error e => exact .failed e h (by decide)
  | ok list =>
      simp only
      cases s.combineList list.ids with
      | error e => exact .failed e h (by decide)
      | ok text => exact .told _ h (.inr rfl)

theorem evaluate (h : request.IsTo .evaluate) (stamp : Stamp) :
    Responds s request (Http.evaluate s request stamp).1 (Http.evaluate s request stamp).2 := by
  unfold Http.evaluate
  cases payload Query.reader request with
  | error e => exact .failed e h (by decide)
  | ok query =>
      simp only
      cases Record.ofMembers query.data with
      | error e => exact .failed _ h (by decide)
      | ok data =>
          simp only
          obtain ⟨e, heval⟩ | ⟨text, result, -, heval⟩ :=
            s.evaluate_cases ⟨query.expression, query.ruleIds, data⟩ stamp
          · rw [heval]
            exact .failed e h (by decide)
          · rw [heval]
            exact .judged ⟨stamp, result, data, text⟩ h

theorem clean (h : request.IsTo .clean) :
    Responds s request (Http.clean s).1 (Http.clean s).2 :=
  .cleaned _ h

theorem answer {route : Route} (h : request.IsTo route) (stamp : Stamp) :
    Responds s request (Http.answer s route request stamp).1
      (Http.answer s route request stamp).2 := by
  cases route with
  | health => exact .health h
  | list => exact list h
  | create => exact create h
  | combine => exact combine h
  | evaluate => exact evaluate h stamp
  | clean => exact clean h

end Responds

theorem responds_routed (s : Service MemoryStore) (request : HttpRequest) (stamp : Stamp) :
    Responds s request (routed s request stamp).1 (routed s request stamp).2 := by
  unfold routed
  cases hpath : Route.ofPath? (pathOf request.target) with
  | none =>
      refine .bare (fun route h => ?_) rfl
      rw [Route.ofPath?_eq_some_iff.mpr h.1] at hpath
      cases hpath
  | some route =>
      have hroute := Route.ofPath?_eq_some_iff.mp hpath
      simp only
      split
      next hmethod => exact .answer ⟨hroute, hmethod⟩ stamp
      next hmethod =>
        have hnot : ∀ r, ¬ request.IsTo r := by
          intro r h
          obtain rfl : route = r := Route.path_injective (hroute.symm.trans h.1)
          exact hmethod h.2
        split
        next hhead =>
          -- only the two routes that change nothing are asked for their headers
          cases route with
          | health => exact .bare hnot rfl
          | list => exact .bare hnot rfl
          | create => exact absurd hhead.2 (by decide)
          | combine => exact absurd hhead.2 (by decide)
          | evaluate => exact absurd hhead.2 (by decide)
          | clean => exact absurd hhead.2 (by decide)
        next => exact .bare hnot rfl

theorem Route.method_ne_options (route : Route) : route.method ≠ "OPTIONS" := by
  cases route <;> decide

/-- Every request is answered in one of these ways. -/
theorem responds (s : Service MemoryStore) (request : HttpRequest) (stamp : Stamp) :
    Responds s request (respond s request stamp).1 (respond s request stamp).2 := by
  unfold respond
  split
  next hoptions =>
    exact .bare (fun route h => route.method_ne_options (h.2.symm.trans hoptions)) rfl
  next => exact responds_routed s request stamp

/-- What a success of a route has done, where the data tells of it. -/
def Route.Effect (data : Json) (s s' : Service MemoryStore) : Route → Prop
  | .health | .list | .combine => s' = s
  | .create => ∃ rule : Rule, data = rule.toJson ∧ s' = { s with store := s.store.save rule }
  | .evaluate => ∃ e : Evaluation, data = .bool e.result ∧ s' = s.note e
  | .clean => s' = { s with store := s.store.clear }

namespace Responds

variable {s s' : Service MemoryStore} {request : HttpRequest} {response : HttpResponse}

/-- A success is one of a route, and does what this route does. -/
theorem of_isSuccess (h : Responds s request response s') {data : Json}
    (hsuccess : response.IsSuccess data) :
    ∃ route, request.IsTo route ∧ route.Effect data s s' := by
  cases h with
  | bare hnot hbody => simp [HttpResponse.IsSuccess, hbody] at hsuccess
  | health h => simp [HttpResponse.IsSuccess, Http.health, HttpResponse.ofJson] at hsuccess
  | failed e h hroute => simp at hsuccess
  | told told h hroute =>
      obtain rfl | rfl := hroute
      · exact ⟨.list, h, rfl⟩
      · exact ⟨.combine, h, rfl⟩
  | kept rule h =>
      rw [HttpResponse.isSuccess_ofData] at hsuccess
      exact ⟨.create, h, rule, hsuccess.symm, rfl⟩
  | judged e h =>
      rw [HttpResponse.isSuccess_ofData] at hsuccess
      exact ⟨.evaluate, h, e, hsuccess.symm, rfl⟩
  | cleaned told h => exact ⟨.clean, h, rfl⟩

/-- The route that a request is about is the one that a success is of. -/
theorem effect (h : Responds s request response s') {data : Json} {route : Route}
    (hto : request.IsTo route) (hsuccess : response.IsSuccess data) : route.Effect data s s' := by
  obtain ⟨route', hto', heffect⟩ := h.of_isSuccess hsuccess
  obtain rfl := hto.unique hto'
  exact heffect

/-- Without a success nothing changes. -/
theorem eq_of_not_isSuccess (h : Responds s request response s')
    (hnone : ∀ data, ¬ response.IsSuccess data) : s' = s := by
  cases h with
  | bare hnot hbody => rfl
  | health h => rfl
  | failed e h hroute => rfl
  | told data h hroute => rfl
  | kept rule h => exact absurd ((HttpResponse.isSuccess_ofData _ _).mpr rfl) (hnone _)
  | judged e h => exact absurd ((HttpResponse.isSuccess_ofData _ _).mpr rfl) (hnone _)
  | cleaned data h => exact absurd ((HttpResponse.isSuccess_ofData _ _).mpr rfl) (hnone _)

theorem exists_isSuccess (h : Responds s request response s') (hne : s' ≠ s) :
    ∃ data, response.IsSuccess data := by
  by_contra hnone
  exact hne (h.eq_of_not_isSuccess (not_exists.mp hnone))

/-- Below `/api` there is always an envelope. -/
theorem enveloped (h : Responds s request response s') {route : Route} (hroute : route ≠ .health)
    (hto : request.IsTo route) :
    (∃ data, response.IsSuccess data) ∨ ∃ message, response.IsFailure message := by
  cases h with
  | bare hnot hbody => exact absurd hto (hnot route)
  | health h => exact absurd (hto.unique h) hroute
  | failed e h => exact .inr ⟨_, (HttpResponse.isFailure_ofError _ _).mpr rfl⟩
  | told data h => exact .inl ⟨_, (HttpResponse.isSuccess_ofData _ _).mpr rfl⟩
  | kept rule h => exact .inl ⟨_, (HttpResponse.isSuccess_ofData _ _).mpr rfl⟩
  | judged e h => exact .inl ⟨_, (HttpResponse.isSuccess_ofData _ _).mpr rfl⟩
  | cleaned data h => exact .inl ⟨_, (HttpResponse.isSuccess_ofData _ _).mpr rfl⟩

/-- Without a route there is no body. -/
theorem body_eq_none (h : Responds s request response s') (hnot : ∀ route, ¬ request.IsTo route) :
    response.body = none := by
  cases h with
  | bare _ hbody => exact hbody
  | health h | failed _ h | told _ h | kept _ h | judged _ h | cleaned _ h =>
    exact absurd h (hnot _)

/-- The exchange tells what became of the rules. -/
theorem rules_eq_change (h : Responds s request response s') :
    s'.store.rules = HttpExchange.change s.store.rules ⟨request, response⟩ := by
  have hdata : ∀ j, (HttpResponse.ofData j).data? = some j := fun _ => rfl
  cases h with
  | bare hnot hbody => simp [HttpExchange.change, HttpResponse.data?, hbody]
  | health h => rfl
  | failed e h => rfl
  | told data h hroute =>
      have hcreate : ¬ request.IsTo .create := fun h' => by
        obtain rfl := h.unique h'
        simp at hroute
      have hclean : ¬ request.IsTo .clean := fun h' => by
        obtain rfl := h.unique h'
        simp at hroute
      simp [HttpExchange.change, hdata, hcreate, hclean]
  | kept rule h => simp [HttpExchange.change, hdata, h, Rule.ofJson?_toJson, MemoryStore.save]
  | judged e h =>
      have hcreate : ¬ request.IsTo .create := fun h' => absurd (h.unique h') (by decide)
      have hclean : ¬ request.IsTo .clean := fun h' => absurd (h.unique h') (by decide)
      simp [HttpExchange.change, hdata, hcreate, hclean, Service.rules_note]
  | cleaned data h =>
      have hcreate : ¬ request.IsTo .create := fun h' => absurd (h.unique h') (by decide)
      simp [HttpExchange.change, hdata, hcreate, h, MemoryStore.clear]

end Responds

/-! ## What a client may rely on -/

/-- What an exchange with a server in memory is, and what it does to the server. -/
structure Orderly (s : Service MemoryStore) (x : HttpExchange) (s' : Service MemoryStore) :
    Prop where
  /-- A request to a route below `/api` is answered with the envelope of a success or a failure. -/
  enveloped : ∀ route, route ≠ .health → x.request.IsTo route →
    (∃ data, x.response.IsSuccess data) ∨ ∃ message, x.response.IsFailure message
  /-- A request that no route takes is answered without a body. -/
  bare : (∀ route, ¬ x.request.IsTo route) → x.response.body = none
  /-- A failure changes neither the rules nor the journal. -/
  failed : ∀ message, x.response.IsFailure message →
    s'.store.rules = s.store.rules ∧ s'.store.journal = s.store.journal
  /-- A new rule that is a success is in the response, and it is kept. -/
  kept : ∀ data, x.request.IsTo .create → x.response.IsSuccess data →
    ∃ rule : Rule, data = rule.toJson ∧ s'.store.rules = s.store.rules.insert rule.id rule
  /-- The removal of all rules leaves none. -/
  cleaned : ∀ data, x.request.IsTo .clean → x.response.IsSuccess data →
    s'.store.rules = Table.empty
  /-- Nothing else changes the rules. -/
  rules_changed : s'.store.rules ≠ s.store.rules →
    (x.request.IsTo .create ∨ x.request.IsTo .clean) ∧ ∃ data, x.response.IsSuccess data
  /-- A verdict is noted if it is to be recorded, and the oldest entry makes room for it. -/
  judged : ∀ data, x.request.IsTo .evaluate → x.response.IsSuccess data →
    ∃ e : Evaluation, data = .bool e.result ∧ s'.store.journal =
      if s.recording ∧ s.store.capacity ≠ 0 then
        s.store.journal.drop (s.store.journal.length + 1 - s.store.capacity) ++ [e]
      else s.store.journal
  /-- Nothing else changes the journal. -/
  journal_changed : s'.store.journal ≠ s.store.journal →
    x.request.IsTo .evaluate ∧ ∃ data, x.response.IsSuccess data

theorem Responds.orderly {s s' : Service MemoryStore} {request : HttpRequest}
    {response : HttpResponse} (h : Responds s request response s') :
    Orderly s ⟨request, response⟩ s' where
  enveloped _ hroute hto := h.enveloped hroute hto
  bare hnot := h.body_eq_none hnot
  failed message hfailure := by
    have heq : s' = s := h.eq_of_not_isSuccess fun data hsuccess =>
      HttpResponse.not_isFailure_of_isSuccess hsuccess message hfailure
    rw [heq]
    exact ⟨rfl, rfl⟩
  kept data hto hsuccess := by
    obtain ⟨rule, hdata, hnext⟩ := h.effect hto hsuccess
    exact ⟨rule, hdata, by rw [hnext, MemoryStore.save]⟩
  cleaned data hto hsuccess := by
    have hnext : s' = { s with store := s.store.clear } := h.effect hto hsuccess
    rw [hnext, MemoryStore.clear]
  rules_changed hne := by
    obtain ⟨data, hsuccess⟩ := h.exists_isSuccess fun heq => hne (by rw [heq])
    refine ⟨?_, data, hsuccess⟩
    obtain ⟨route, hto, heffect⟩ := h.of_isSuccess hsuccess
    cases route with
    | create => exact .inl hto
    | clean => exact .inr hto
    | evaluate =>
      obtain ⟨e, -, hnext⟩ := heffect
      exact absurd (by rw [hnext, Service.rules_note]) hne
    | health | list | combine =>
      have hnext : s' = s := heffect
      exact absurd (by rw [hnext]) hne
  judged data hto hsuccess := by
    obtain ⟨e, hdata, hnext⟩ := h.effect hto hsuccess
    exact ⟨e, hdata, by rw [hnext, Service.journal_note]⟩
  journal_changed hne := by
    obtain ⟨data, hsuccess⟩ := h.exists_isSuccess fun heq => hne (by rw [heq])
    refine ⟨?_, data, hsuccess⟩
    obtain ⟨route, hto, heffect⟩ := h.of_isSuccess hsuccess
    cases route with
    | evaluate => exact hto
    | create =>
      obtain ⟨rule, -, hnext⟩ := heffect
      exact absurd (by rw [hnext, MemoryStore.save]) hne
    | clean =>
      have hnext : s' = { s with store := s.store.clear } := heffect
      exact absurd (by rw [hnext, MemoryStore.clear]) hne
    | health | list | combine =>
      have hnext : s' = s := heffect
      exact absurd (by rw [hnext]) hne

end Http

/-- Behind any requests, the rules are those that the exchanges tell, and whatever request comes
next, the exchange is an orderly one. -/
theorem exchanges_of_run (capacity : Nat) (recording : Bool) (calls : List (HttpRequest × Stamp)) :
    (Http.reached capacity recording calls).store.rules =
      (Http.exchanges capacity recording calls).foldl HttpExchange.change Table.empty ∧
    ∀ call, Http.Orderly (Http.reached capacity recording calls)
      (Http.exchange (Http.reached capacity recording calls) call).1
      (Http.exchange (Http.reached capacity recording calls) call).2 := by
  constructor
  · rw [Http.exchanges, List.foldl_map]
    exact Run.view_after (fun s : Service MemoryStore => s.store.rules)
      (fun s call => (Http.responds s call.1 call.2).rules_eq_change) _ calls
  · intro call
    exact (Http.responds _ call.1 call.2).orderly

/-- A rule that is kept, and a query about a field that is not a number or a text, which fails and
changes nothing. -/
theorem exchanges_of_run_query :
    ∃ (create query : HttpRequest) (stamp : Stamp),
      create.IsTo .create ∧ query.IsTo .evaluate ∧
      (Http.reached 1 true [(create, stamp)]).store.rules.values = [⟨"a", "x > 1"⟩] ∧
      ∃ message,
        (Http.exchange (Http.reached 1 true [(create, stamp)])
          (query, stamp)).1.response.IsFailure message ∧
        (Http.reached 1 true [(create, stamp), (query, stamp)]).store.rules =
          (Http.reached 1 true [(create, stamp)]).store.rules := by
  let create : HttpRequest :=
    ⟨"POST", "/api/rules", some "application/json",
      "\x7b\"id\": \" a\", \"expression\": \"X > 1\"\x7d".toUTF8⟩
  let query : HttpRequest :=
    ⟨"POST", "/api/rules/evaluate", some "application/json",
      "\x7b\"rule_ids\": [\"a\"], \"query_data\": \x7b\"x\": null\x7d\x7d".toUTF8⟩
  let stamp : Stamp :=
    ⟨"00000000-0000-4000-8000-000000000001", "2024-05-01T12:00:00Z", by decide +kernel⟩
  have hquery : query.IsTo .evaluate := by decide +kernel
  obtain ⟨hrules, hnext⟩ := exchanges_of_run 1 true [(create, stamp)]
  have hnodata : (Http.exchange (Http.reached 1 true [(create, stamp)])
      (query, stamp)).1.response.data?.isNone = true := by
    decide +kernel
  obtain ⟨data, hsuccess⟩ | ⟨message, hfailure⟩ :=
    (hnext (query, stamp)).enveloped .evaluate (by decide) hquery
  · simp [HttpResponse.data?, hsuccess.2.2] at hnodata
  · refine ⟨create, query, stamp, by decide +kernel, hquery, ?_, message, hfailure,
      ((hnext (query, stamp)).failed message hfailure).1⟩
    rw [hrules]
    decide +kernel

end Rulebook
