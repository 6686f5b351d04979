import SlotLogic.Proofs.Cache.History
import SlotLogic.Settings

/-!
Contract: reading with a store of statements answers as reading without one, and the
store holds the statements that were read last.

Owns: requests to read, the answers to a list of requests and the store after it, the
absence of any trace of the store in the answers, and the contents and hits of the store.

Requests are calls of a store whose keys are texts with their modes. The two laws are
the laws of such a store at these keys.

Does not own: what a text is read as.
-/

set_option autoImplicit false

namespace SlotLogic

/-- A text that is to be read. Where no mode is asked for, the settings decide. -/
structure ReadRequest where
  text : List Char
  mode : Option Bool
deriving DecidableEq, Repr

def ReadRequest.key (settings : Settings) (request : ReadRequest) : ReadKey :=
  ⟨request.text, request.mode.getD settings.lenient⟩

/-- Read the text of a key in its mode, without a store. -/
def ReadKey.read (key : ReadKey) : Except ReadFault Expr :=
  SlotLogic.parse key.lenient key.text

/-- Whether the text of a key holds a statement in its mode. -/
def ReadKey.isReadable (key : ReadKey) : Bool :=
  Cache.succeeds ReadKey.read key

namespace StatementCache

/-- The answers to requests that are made one after the other on one store. -/
def answers (settings : Settings) :
    StatementCache → List ReadRequest → List (Except ReadFault Expr)
  | _, [] => []
  | cache, request :: later =>
    let reply := StatementCache.parse settings cache request.text request.mode
    reply.1 :: answers settings reply.2 later

/-- The store after requests, in order, that started from an empty one. -/
def after (settings : Settings) (requests : List ReadRequest) : StatementCache :=
  requests.foldl
    (fun cache request => (StatementCache.parse settings cache request.text request.mode).2)
    (.empty settings.capacity)

/-- The keys of requests, in order. -/
def called (settings : Settings) (requests : List ReadRequest) : List ReadKey :=
  requests.map (ReadRequest.key settings)

theorem called_filter (settings : Settings) (requests : List ReadRequest) :
    called settings (requests.filter fun request => (request.key settings).isReadable) =
      (called settings requests).filter ReadKey.isReadable :=
  List.filter_map.symm

variable {settings : Settings}

theorem parse_eq_fetch (cache : StatementCache) (request : ReadRequest) :
    StatementCache.parse settings cache request.text request.mode =
      cache.fetch ReadKey.read (request.key settings) :=
  rfl

theorem after_eq (settings : Settings) (requests : List ReadRequest) :
    after settings requests =
      Cache.after ReadKey.read settings.capacity (called settings requests) := by
  rw [Cache.after, called, List.foldl_map]
  rfl

/-- The store after requests agrees with their keys. -/
theorem follows (settings : Settings) (requests : List ReadRequest) :
    Cache.Follows ReadKey.read settings.capacity (called settings requests)
      (after settings requests) := by
  rw [after_eq]
  exact Cache.follows_after _ _ _

/-- From a store that agrees with any history, requests are answered as without one. -/
theorem answers_eq {calls : List ReadKey} {cache : StatementCache}
    (follows : cache.Follows ReadKey.read settings.capacity calls)
    (requests : List ReadRequest) :
    answers settings cache requests = (called settings requests).map ReadKey.read := by
  induction requests generalizing calls cache with
  | nil => rfl
  | cons request later inductionHypothesis =>
      have answer := follows.answer (request.key settings)
      have onward := inductionHypothesis (follows.fetch (request.key settings))
      rw [answers, parse_eq_fetch, onward, answer]
      rfl

end StatementCache

open StatementCache

/-- Requests to a store that starts empty are answered as if every text was read anew in
the mode that is asked for, or in the mode of the settings. What the store holds was read
from its own text in its own mode. -/
theorem storage_does_not_show (settings : Settings) (requests : List ReadRequest) :
    answers settings (.empty settings.capacity) requests =
        requests.map (fun request =>
          parse (request.mode.getD settings.lenient) request.text) ∧
      ∀ entry ∈ (after settings requests).entries,
        parse entry.1.lenient entry.1.text = .ok entry.2 := by
  refine ⟨?_, (follows settings requests).faithful⟩
  rw [answers_eq (.empty _ _), called, List.map_map]
  rfl

/-- One text in three requests: strict as the settings say, lenient, and strict. -/
def oneTextThrice : List ReadRequest :=
  [⟨"if(1=2;3;4)or".toList, none⟩, ⟨"if(1=2;3;4)or".toList, some true⟩,
    ⟨"if(1=2;3;4)or".toList, some false⟩]

/-- In a store for one statement, input that trails is refused before and after the same
text was read with it. -/
theorem trailing_input_stays_refused :
    (⟨⟨"if(1=2;3;4)or".toList, true⟩,
        .choose (.compare .eq (.slot 1) (.slot 2)) (.slot 3) (.slot 4)⟩ : ReadKey × Expr) ∈
      (after ⟨1, false, true⟩ oneTextThrice).entries ∧
    answers ⟨1, false, true⟩ (.empty 1) oneTextThrice =
      [.error (.failure ⟨.endOfText, ⟨.orWord, ['o', 'r'], 11⟩⟩),
        .ok (.choose (.compare .eq (.slot 1) (.slot 2)) (.slot 3) (.slot 4)),
        .error (.failure ⟨.endOfText, ⟨.orWord, ['o', 'r'], 11⟩⟩)] ∧
    parse true "if(1=2;3;4)or".toList =
      .ok (.choose (.compare .eq (.slot 1) (.slot 2)) (.slot 3) (.slot 4)) := by
  obtain ⟨unseen, faithful⟩ := storage_does_not_show ⟨1, false, true⟩ oneTextThrice
  have stored : (⟨⟨"if(1=2;3;4)or".toList, true⟩,
      .choose (.compare .eq (.slot 1) (.slot 2)) (.slot 3) (.slot 4)⟩ : ReadKey × Expr) ∈
      (after ⟨1, false, true⟩ oneTextThrice).entries :=
    List.mem_of_mem_head? (by rfl)
  exact ⟨stored, unseen.trans (by rfl), faithful _ stored⟩

/-- The store holds the statements that were read last, as many as fit, the last one
first. A request is a hit exactly if its text holds a statement that was read before, and
fewer other statements than fit were read since. Every request is a hit or a miss. A
request that cannot be read changes neither the entries nor their order. -/
theorem store_holds_last_statements (settings : Settings) (earlier : List ReadRequest)
    (request : ReadRequest) :
    (after settings earlier).keys =
        (byLastCall ((called settings earlier).filter ReadKey.isReadable)).take
          settings.capacity ∧
      (after settings earlier).size =
        min settings.capacity
          ((called settings earlier).filter ReadKey.isReadable).dedup.length ∧
      (after settings earlier).hits + (after settings earlier).misses = earlier.length ∧
      ((after settings (earlier ++ [request])).hits = (after settings earlier).hits + 1 ↔
        (request.key settings).isReadable = true ∧
          request.key settings ∈ called settings earlier ∧
          ((callsSince (request.key settings) (called settings earlier)).filter
            ReadKey.isReadable).dedup.length < settings.capacity) ∧
      (after settings (earlier.filter fun request =>
        (request.key settings).isReadable)).entries = (after settings earlier).entries := by
  have agrees := follows settings earlier
  have recent := agrees.recent
  refine ⟨recent, ?_, ?_, ?_, ?_⟩
  · have length := congrArg List.length recent
    rw [List.length_take, byLastCall, List.length_reverse, Cache.keys, List.length_map] at length
    exact length
  · have counted := agrees.counted
    rw [called, List.length_map] at counted
    exact counted
  · rw [after, List.foldl_concat]
    exact Cache.hits_fetch _ |>.trans (agrees.mem_keys _)
  · rw [after_eq, after_eq, called_filter]
    exact Cache.entries_after_filter _ _ _

/-- In a store for two statements the one that was read again stays, and a text that
cannot be read drops nothing. -/
example :
    (after ⟨2, false, true⟩
      [⟨"if(1=2;1;2)".toList, none⟩, ⟨"if(1=2;3;4)".toList, none⟩,
        ⟨"if(1=2;1;2)".toList, some false⟩, ⟨"if(1=".toList, none⟩,
        ⟨"if(1=2;1;2)".toList, some true⟩]).keys =
      [⟨"if(1=2;1;2)".toList, true⟩, ⟨"if(1=2;1;2)".toList, false⟩] := by
  rfl

end SlotLogic
