import VolBacktest.Backtest.Request
import VolBacktest.Proofs.Compilation.Reliance
import VolBacktest.Proofs.Documents.Compiled
import VolBacktest.Proofs.Documents.Results

/-!
# Requests read back

A request is one object with the members of its configuration among its own. All names are different,
so the object is at the same time a request, a configuration and settings: each reader takes its own
members and leaves the others alone. The configuration is read from a kept part when it is read as
part of a request, and straight from the text when it is read alone; both give the same.
-/

namespace VolBacktest

open Json

theorem TradeInMethod.restores (method : TradeInMethod) (budget : Nat) :
    reader.Restores budget method.json method :=
  Reader.oneOf_restores (by cases method; rfl) budget

namespace BacktestSettings

def members (settings : BacktestSettings) : List (String × Json) :=
  [("name", .string settings.name), ("trade_in_method", settings.tradeInMethod.json)]

def fieldsOf : Fields BacktestSettings :=
  BacktestSettings.mk
    <$> Fields.defaulted "name" .string default.name
    <*> .defaulted "trade_in_method" TradeInMethod.reader default.tradeInMethod

theorem fieldsOf_encodes (settings : BacktestSettings) (budget : Nat) :
    fieldsOf.Encodes budget settings.members settings := by
  have first := Fields.Encodes.single "name" (fun _ _ => .ok default.name)
    (Reader.string_restores settings.name budget)
  have second := Fields.Encodes.single "trade_in_method" (fun _ _ => .ok default.tradeInMethod)
    (settings.tradeInMethod.restores budget)
  exact (first.map BacktestSettings.mk).seq second

theorem reader_roundTrips : reader.RoundTrips json := by
  intro mode budget tree settings read
  obtain ⟨rest, -, rfl, -⟩ := Fields.reader_ok read
  exact (settings.fieldsOf_encodes rest).restores _ (by simp [members])

end BacktestSettings

namespace BacktestRequest

variable {budget : Nat}

def settings (request : BacktestRequest) : BacktestSettings :=
  ⟨request.name, request.tradeInMethod⟩

def members (request : BacktestRequest) : List (String × Json) :=
  request.settings.members ++ request.config.members ++
    [("start", .date request.first), ("end", .date request.last)]

theorem distinct_members (request : BacktestRequest) : (request.members.map (·.1)).Nodup := by
  simp [members, BacktestSettings.members, Config.members]

theorem settings_subset (request : BacktestRequest) :
    request.settings.members ⊆ request.members := by
  simp [members]

theorem config_subset (request : BacktestRequest) : request.config.members ⊆ request.members := by
  simp [members]

theorem legible_members {request : BacktestRequest} (h : request.config.Restorable budget) :
    ∀ member ∈ request.members, member.2.Legible budget := by
  intro member mem
  rw [members, List.append_assoc, List.mem_append, List.mem_append] at mem
  obtain own | inConfig | dated := mem
  · exact (request.settings.fieldsOf_encodes budget).legible member own
  · exact h.encodes.legible member inConfig
  · simp only [List.mem_cons, List.not_mem_nil, or_false] at dated
    obtain rfl | rfl := dated
    · exact (Reader.date_restores request.first budget).legible
    · exact (Reader.date_restores request.last budget).legible

/-! ### The request itself -/

theorem ownFields_read {request : BacktestRequest} (h : request.config.Restorable budget)
    (mode : Mode) {room : Nat} (enough : budget ≤ room) :
    ownFields.read mode room
        ⟨"BacktestRequest", ownFields.names.length, .members (written request.members)⟩ 0 =
      .ok fun config => { request with config } := by
  have name := Fields.Encodes.required_of "name" (Reader.string_restores request.name budget)
  have method := Fields.Encodes.required_of "trade_in_method"
    (request.tradeInMethod.restores budget)
  have first := Fields.Encodes.required_of "start" (Reader.date_restores request.first budget)
  have last := Fields.Encodes.required_of "end" (Reader.date_restores request.last budget)
  have own := (((name.map fun name method first last (_ : List (String × Json)) config =>
    (⟨name, method, config, first, last⟩ : BacktestRequest)).seq method).seq first).seq last
  have ownRead := own.reads request.members request.distinct_members
    (by simp [members, settings, BacktestSettings.members]) mode room "BacktestRequest"
    ownFields.names.length 0 enough
  have othersRead := Fields.others_written ownNames (reread room) request.members
    (fun member mem _ => (legible_members h member mem).json_eq enough) mode "BacktestRequest"
    ownFields.names.length
  exact Fields.seq_read ownRead (othersRead _)

theorem filter_members (request : BacktestRequest) :
    (written request.members).filter (fun entry => !ownNames.contains entry.1) =
      written request.config.members :=
  filter_written (fun name => !ownNames.contains name) request.members

theorem restores {request : BacktestRequest} (h : request.config.Restorable budget) :
    reader.Restores (budget + 1) request.json request where
  legible := legible_object (legible_members h)
  reads mode room enough := by
    obtain ⟨room, rfl⟩ := Nat.exists_eq_add_of_le' (Nat.le_of_add_left_le enough)
    have bound : budget ≤ room := Nat.le_of_succ_le_succ enough
    change reader mode (room + 1) (.ofJson (.object request.members)) = .ok request
    rw [Tree.ofJson, reader, opened, Fields.objectContent_closed]
    refine bind_eq_ok.mpr ⟨_, Fields.readFrom_written (ownFields_read h mode bound), ?_⟩
    rw [filter_members]
    have configRead := h.encodes.reads request.config.members request.config.distinct_members
      (List.Subset.refl _) .kept room Config.typeName Config.fieldsOf.names.length 0 bound
    exact bind_eq_ok.mpr ⟨request.config, Fields.readFrom_written configRead, rfl⟩

theorem ownFields_ok {mode : Mode} {index : Nat} {source : Source}
    {make : Config → BacktestRequest} (read : ownFields.read mode budget source index = .ok make)
    (config : Config) : (make config).config = config := by
  obtain ⟨_, _, four, -, rfl⟩ := Fields.seq_ok read
  obtain ⟨_, _, three, -, rfl⟩ := Fields.seq_ok four
  obtain ⟨_, _, two, -, rfl⟩ := Fields.seq_ok three
  obtain ⟨_, _, one, -, rfl⟩ := Fields.seq_ok two
  obtain ⟨_, -, rfl⟩ := Fields.map_ok one
  rfl

theorem restorable_of_reader {mode : Mode} {tree : Tree} {request : BacktestRequest}
    (read : reader mode budget tree = .ok request) :
    ∃ rest, budget = rest + 1 ∧ request.config.Restorable rest := by
  rw [reader.eq_def] at read
  split at read
  next =>
    obtain ⟨rest, rfl, inside⟩ := opened_eq_ok.mp read
    obtain ⟨make, own, kept⟩ := bind_eq_ok.mp inside
    obtain ⟨config, found, same⟩ := bind_eq_ok.mp kept
    cases same
    refine ⟨rest, rfl, ?_⟩
    rw [ownFields_ok (Fields.readFrom_ok own)]
    exact Config.fieldsOf_restorable (Fields.readFrom_ok found)
  next => exact absurd read not_mismatch_eq_ok

theorem reader_roundTrips : reader.RoundTrips json := by
  intro mode budget tree request read
  obtain ⟨rest, rfl, restorable⟩ := restorable_of_reader read
  exact restores restorable

/-! ### The parts of a request -/

theorem config_restores {request : BacktestRequest} (h : request.config.Restorable budget) :
    Config.reader.Restores (budget + 1) request.json request.config :=
  h.encodes.restores_among Config.typeName request.distinct_members request.config_subset
    (legible_members h)

theorem settings_restores {request : BacktestRequest} (h : request.config.Restorable budget) :
    BacktestSettings.reader.Restores (budget + 1) request.json request.settings :=
  (request.settings.fieldsOf_encodes budget).restores_among "BacktestSettings"
    request.distinct_members request.settings_subset (legible_members h)

/-- The request has been read from a text, or made for a strategy that has. -/
inductive Arises : BacktestRequest → Prop where
  | read {text : String} {request : BacktestRequest}
      (accepted : Json.read reader text = .ok request) : Arises request
  | built {text : String} {strategy : Strategy} {config : Config}
      (accepted : Strategy.parse text = .ok strategy) (compiled : strategy.compile = .ok config)
      (settings : BacktestSettings) (first last : Date) :
      Arises (ofConfig config settings first last)

theorem Arises.restorable {request : BacktestRequest} (h : request.Arises) :
    request.config.Restorable (depthLimit - 1) := by
  cases h with
  | read accepted =>
    obtain ⟨rest, depth, restorable⟩ := restorable_of_reader (reader_of_read accepted)
    rw [depth]
    exact restorable
  | built accepted compiled =>
    exact (Strategy.compiled_restorable accepted compiled).mono (by decide)

end BacktestRequest

/-- What is read from a text is read again from what is written for it, which is written again. -/
def Json.Reader.Stable {α : Type} (reader : Reader α) (json : α → Json) : Prop :=
  ∀ text value, read reader text = .ok value →
    ∃ again, read reader (json value).text = .ok again ∧ again = value ∧
      (json again).text = (json value).text

theorem Json.Reader.RoundTrips.stable {α : Type} {reader : Reader α} {json : α → Json}
    (h : reader.RoundTrips json) : reader.Stable json :=
  fun _ value accepted => ⟨value, read_text (h.restores accepted), rfl, rfl⟩

namespace BacktestRequest

/-- All documents of a run are stable, and a request is at the same time its configuration and its
settings, however it arises. This rests on the assumption `Number.ReadsBack` for all numbers that are
written. -/
theorem documents_round_trip :
    Config.reader.Stable Config.json ∧ reader.Stable json ∧
    BacktestSettings.reader.Stable BacktestSettings.json ∧
    BacktestResult.reader.Stable BacktestResult.json ∧
    ∀ request : BacktestRequest, request.Arises →
      Json.read Config.reader request.json.text = .ok request.config ∧
      Json.read BacktestSettings.reader request.json.text =
        .ok ⟨request.name, request.tradeInMethod⟩ := by
  refine ⟨Config.reader_roundTrips.stable, reader_roundTrips.stable,
    BacktestSettings.reader_roundTrips.stable, ?_, ?_⟩
  · intro text result accepted
    have restored := BacktestResult.restores_of_reader (by decide) (reader_of_read accepted)
    exact ⟨result, read_text restored, rfl, rfl⟩
  · intro request arises
    exact ⟨read_text (config_restores arises.restorable),
      read_text (settings_restores arises.restorable)⟩

/-- The run of a strategy that does nothing, with a name of its own. -/
def idleRun : BacktestRequest where
  name := "idle"
  tradeInMethod := .fixedRoll
  config := .default
  first := .january
  last := .july

/-- The members are out of order, what may be null is left out, and the number is an integer. -/
def idleText : String :=
  "\x7b\"index_initial_value\":0,\"name\":\"idle\",\"trade_in_signals\":[]," ++
    "\"trade_in_method\":\"fixedRoll\",\"end\":\"2020-07-01\",\"trade_out_signals\":[]," ++
    "\"start\":\"2020-01-02\"\x7d"

theorem read_idleText : Json.read reader idleText = .ok idleRun :=
  toOption_eq_some.mp (by decide +kernel)

/-- The run of a strategy that has been parsed, under the default settings. -/
def rollingRun : BacktestRequest := ofConfig Strategy.rolling.configuration .default .january .july

/-- What a strategy is compiled to, with all structures but the instrument written as lists. -/
def hedgedText : String :=
  "[[\x7b\"type\":\"EqOption\"\x7d],\"1m\",5,\"NAV\",[],[[\"2020-07-01\",true]],[\"Daily\"],5]"

theorem read_hedgedText :
    Json.read Config.reader hedgedText = .ok Strategy.rolledAndHedged.configuration :=
  toOption_eq_some.mp (by decide +kernel)

/-- A measure with two points, a position and a trade. -/
def reportedResult : BacktestResult where
  risks := .ofList [("PNL", [⟨.july, minusFive⟩, ⟨.january, .zero⟩])]
  portfolio := [⟨.january, [⟨.zero, .ofList [("type", .string "EqOption"),
    ("legs", .array [.object [("a", .null), ("b", .float minusFive)]])]⟩]⟩]
  transactions := [⟨.july, [⟨"exit", [⟨minusFive, .empty⟩]⟩]⟩]
where
  minusFive : Binary64 := (Binary64.ofDecimal true 5 0).getD .zero

/-- The measure is reported twice, and the instrument has its fields out of order. -/
def reportedText : String :=
  "[\x7b\"PNL\":[],\"PNL\":[[\"2020-07-01\",-5],[\"2020-01-02\",0]]\x7d," ++
    "[[\"2020-01-02\",[[0,\x7b\"type\":\"EqOption\",\"legs\":[\x7b\"b\":-5.0,\"a\":null\x7d]\x7d]]]]," ++
    "[[\"2020-07-01\",[[\"exit\",[[-5,\x7b\x7d]]]]]]]"

theorem read_reportedText : Json.read BacktestResult.reader reportedText = .ok reportedResult :=
  toOption_eq_some.mp (by decide +kernel)

/-- All four documents read from texts other than those written, a request that has been read and one
that has been built. -/
theorem documents_round_trip_at_texts :
    (∃ again, Json.read Config.reader Strategy.rolledAndHedged.configuration.json.text = .ok again ∧
      again = Strategy.rolledAndHedged.configuration ∧
      again.json.text = Strategy.rolledAndHedged.configuration.json.text) ∧
    (∃ again, Json.read reader idleRun.json.text = .ok again ∧ again = idleRun ∧
      again.json.text = idleRun.json.text) ∧
    (∃ again, Json.read BacktestSettings.reader idleRun.settings.json.text = .ok again ∧
      again = ⟨"idle", .fixedRoll⟩ ∧ again.json.text = idleRun.settings.json.text) ∧
    (∃ again, Json.read BacktestResult.reader reportedResult.json.text = .ok again ∧
      again = reportedResult ∧ again.json.text = reportedResult.json.text) ∧
    (Json.read Config.reader idleRun.json.text = .ok .default ∧
      Json.read BacktestSettings.reader idleRun.json.text = .ok ⟨"idle", .fixedRoll⟩) ∧
    (Json.read Config.reader rollingRun.json.text = .ok Strategy.rolling.configuration ∧
      Json.read BacktestSettings.reader rollingRun.json.text = .ok .default) := by
  obtain ⟨config, request, settings, result, parts⟩ := documents_round_trip
  have readSettings :
      Json.read BacktestSettings.reader "[\"idle\",\"fixedRoll\"]" = .ok idleRun.settings :=
    toOption_eq_some.mp (by decide +kernel)
  refine ⟨config hedgedText _ read_hedgedText, request idleText _ read_idleText,
    settings _ _ readSettings, result reportedText _ read_reportedText, ?_, ?_⟩
  · exact parts idleRun (.read read_idleText)
  · exact parts rollingRun
      (.built Strategy.parse_rollingText Strategy.compile_rolling .default .january .july)

end BacktestRequest

end VolBacktest
