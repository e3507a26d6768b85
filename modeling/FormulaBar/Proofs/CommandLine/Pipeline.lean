import FormulaBar.CommandLine.Run
import FormulaBar.Proofs.Session.Export
import FormulaBar.Proofs.Token.Exchange

/-!
# FormulaBar.Proofs.CommandLine.Pipeline — a script's report, evaluated

The command that plays a script can write its report as JSON, and the command that evaluates tokens reads that text. It
finds the tokens of the report in it (`readTokens_report`), they can be loaded, and their result with the same bindings
is the one of the report. So both commands end with the same exit code (`eval_calc`).
-/

namespace FormulaBar.CommandLine

open Json

/-! ### The text of a report -/

theorem nestingOfItems_le {n : Nat} {vs : List Value} (h : ∀ v ∈ vs, v.nesting ≤ n) : Value.nestingOfItems vs ≤ n := by
  induction vs with
  | nil => exact Nat.zero_le _
  | cons v vs ih =>
    obtain ⟨hfirst, hrest⟩ := List.forall_mem_cons.1 h
    exact Nat.max_le.2 ⟨hfirst, ih hrest⟩

theorem nesting_reportJson (r : Report) : (reportJson r).nesting ≤ 3 := by
  have htokens : Value.nestingOfItems (r.tokens.map Token.toJson) ≤ 1 :=
    nestingOfItems_le (List.forall_mem_map.2 fun t _ => (Token.nesting_toJson t).le)
  have hcandidates : Value.nestingOfItems (r.candidates.map .string) ≤ 0 :=
    nestingOfItems_le (List.forall_mem_map.2 fun s _ => (Value.nesting.eq_def (.string s)).le)
  simp only [reportJson, Value.nesting, Value.nestingOfFields]
  omega

theorem rereadItems?_strings (labels : List String) :
    Value.rereadItems? (labels.map .string) = some (labels.map .string) := by
  induction labels with
  | nil => rfl
  | cons label labels ih => simp [Value.rereadItems?, Value.reread?, ih]

/-- A report is read back with its tokens as they are read back. -/
theorem reread?_reportJson (r : Report) : (reportJson r).reread? =
    (Value.rereadItems? (r.tokens.map Token.toJson)).map fun items => .object
      [ ("tokens", .array items), ("expression", .string r.expression), ("result", .string r.result),
        ("pending", .string r.pending), ("candidates", .array (r.candidates.map .string)) ] := by
  rw [reportJson, Value.reread?]
  cases h : Value.rereadItems? (r.tokens.map Token.toJson) <;>
    simp [Value.rereadFields?, Value.reread?, h, rereadItems?_strings]

theorem mapM_ofJson_rereadItems? {ts : List Token} (h : ∀ t ∈ ts, t.data.Finite) :
    (Value.rereadItems? (ts.map Token.toJson)).map (·.mapM Token.ofJson) = (ts.mapM Token.reread?).map .ok := by
  induction ts with
  | nil => rfl
  | cons t ts ih =>
    obtain ⟨hfirst, hrest⟩ := List.forall_mem_cons.1 h
    have htoken := Token.ofJson_reread? t hfirst
    have htokens := ih hrest
    rw [List.map_cons, Value.rereadItems?, List.mapM_cons]
    -- one token is read again in full or not at all, and so is a list
    cases hvalue : t.toJson.reread? with
    | none =>
      rw [hvalue, Option.map_none, eq_comm, Option.map_eq_none_iff] at htoken
      rw [htoken]
      rfl
    | some v =>
      rw [hvalue, Option.map_some, eq_comm, Option.map_eq_some_iff] at htoken
      obtain ⟨t', ht', hv⟩ := htoken
      rw [ht']
      cases hvalues : Value.rereadItems? (ts.map Token.toJson) with
      | none =>
        rw [hvalues, Option.map_none, eq_comm, Option.map_eq_none_iff] at htokens
        rw [htokens]
        rfl
      | some vs =>
        rw [hvalues, Option.map_some, eq_comm, Option.map_eq_some_iff] at htokens
        obtain ⟨ts', hts', hvs⟩ := htokens
        rw [hts']
        show some (List.mapM Token.ofJson (v :: vs)) = some (.ok (t' :: ts'))
        rw [List.mapM_cons, ← hv, ← hvs]
        rfl

/-- The tokens are found in the text of a report, with their numbers as they are read back. -/
theorem readTokens_report (path : String) {r : Report} (h : ∀ t ∈ r.tokens, t.data.Finite) :
    readTokens path (unlines [(reportJson r).pretty]) =
      (r.tokens.mapM Token.reread?).elim (.error (.malformedJson path)) .ok := by
  -- what stands behind the document is the end of the line
  have htext : (unlines [(reportJson r).pretty]).toList = (reportJson r).chars .pretty 0 ++ ['\n'] := by
    simp [unlines, Value.pretty]
  have hblank : AllBlank ['\n'] := by simp [AllBlank, Text.isSeparator]
  have hfront := Document.front?_chars Layout.sound_pretty (reportJson r) hblank
  have hdeep := nesting_reportJson r
  have hvalue : (reportJson r).document.value? = (reportJson r).reread? :=
    Value.valueWithin?_document (reportJson r) (Nat.le_trans hdeep (by decide))
  have hitems := mapM_ofJson_rereadItems? h
  rw [readTokens, htext, hfront]
  simp only [hvalue, reread?_reportJson]
  cases hreread : Value.rereadItems? (r.tokens.map Token.toJson) with
  | none =>
    rw [hreread, Option.map_none, eq_comm, Option.map_eq_none_iff] at hitems
    rw [hitems]
    rfl
  | some items =>
    rw [hreread, Option.map_some, eq_comm, Option.map_eq_some_iff] at hitems
    obtain ⟨tokens, htokens, hread⟩ := hitems
    -- the other fields of the report are not looked at
    have hfield : tokensOf? (.object [("tokens", .array items), ("expression", .string r.expression),
        ("result", .string r.result), ("pending", .string r.pending),
        ("candidates", .array (r.candidates.map .string))]) = some tokens := by
      show (items.mapM Token.ofJson).toOption = _
      rw [← hread]
      rfl
    rw [htokens]
    simp only [Option.map_some, hfield]
    rfl

/-! ### The two commands -/

/-- The exit code of a command that shows a result. -/
def codeOf (result : String) : Nat := if result = Formula.invalid then 1 else 0

variable {env env' : Environment} {words words' : List String} {source : Source}

/-- A command that shows a result exits with the code of the result. -/
theorem run_of_shown {invocation : Invocation} {out result : String} (hwords : Request.ofWords words = .run invocation)
    (hshown : runCommand env (loadSettings env invocation.settings).1 invocation.command =
      .ok { out, failure := failureOf result }) :
    (run env words).out = out ∧ (run env words).code = codeOf result := by
  by_cases hinvalid : result = Formula.invalid <;> simp [run, hwords, hshown, failureOf, codeOf, hinvalid, Failure.code]

/-- The report that the keys of a script are played to. -/
def reportOf (env : Environment) (settings : Option String) (catalog : Catalog) (keepPending : Bool)
    (keys : List Key) : Report :=
  Replay.run catalog.lookup keepPending
    (Editor.start catalog.bindings (loadSettings env settings).1.editorOptions) keys
    (loadSettings env settings).1.debounceMs

theorem run_calc {script : String} {keepPending : Bool} {settings : Option String} {keys : List Key} {catalog : Catalog}
    (hwords : Request.ofWords words = .run ⟨.calc script source keepPending true, settings⟩)
    (hkeys : Script.keys script = .ok keys) (hsource : loadSource env source = .ok catalog) :
    (run env words).out = unlines [(reportJson (reportOf env settings catalog keepPending keys)).pretty] ∧
      (run env words).code = codeOf (reportOf env settings catalog keepPending keys).result := by
  refine run_of_shown hwords ?_
  simp only [runCommand, playScript, hkeys, hsource]
  rfl

/-- A result as JSON, with the expression that it is the result of. -/
def resultJson (tokens : List Token) (bindings : Bindings) : Value :=
  .object [("source", .string (Formula.source tokens bindings)), ("result", .string (Formula.result tokens bindings))]

theorem run_eval {path text : String} {json : Bool} {settings : Option String} {tokens : List Token} {catalog : Catalog}
    (hwords : Request.ofWords words = .run ⟨.eval path source json, settings⟩)
    (hinput : readInput env path = .ok text) (htokens : readTokens path text = .ok tokens)
    (hloadable : TokenSequence.Loadable tokens) (hsource : loadSource env source = .ok catalog) :
    (run env words).out = unlines
        [if json then (resultJson tokens catalog.bindings).pretty else Formula.result tokens catalog.bindings] ∧
      (run env words).code = codeOf (Formula.result tokens catalog.bindings) := by
  have hload : TokenSequence.load {} tokens = .ok (⟨tokens⟩, IdSupply.reserveAll {} tokens) :=
    TokenSequence.load_eq_ok_iff.2 ⟨hloadable, rfl, rfl⟩
  refine run_of_shown hwords ?_
  rw [runCommand, evaluateTokens, hinput]
  show (readTokens path text).bind _ = _
  rw [htokens]
  show ((TokenSequence.load {} tokens).mapError _).bind _ = _
  rw [hload]
  show (loadSource env source).bind _ = _
  rw [hsource]
  rfl

/-- A catalog is read from its file and from nothing else. -/
theorem loadSource_congr (h : ∀ path ∈ source.catalog, env'.read path = env.read path) :
    loadSource env' source = loadSource env source := by
  have hcatalog : loadCatalog env' source.catalog = loadCatalog env source.catalog := by
    cases hpath : source.catalog with
    | none => rfl
    | some path => rw [loadCatalog, loadCatalog, h path hpath]
  rw [loadSource, loadSource, hcatalog]

/-! ### One after the other -/

theorem finite_of_check {d : TokenData} (h : d.check = .ok ()) : d.Finite := by
  cases d with
  | number x => exact TokenData.check_number_eq_ok_iff.1 h
  | operand op => trivial
  | tag label => trivial

/-- A script is played with a source that loads, and its report is written as JSON. If JSON keeps the numbers of the
report, then evaluating that text with the same source finds the tokens of the report, which can be loaded, and shows
the result of the report, and both commands exit with the code of that result. A text in memory has fewer than `2 ^ 63`
characters. -/
theorem eval_shows_calc {script path : String} {keepPending json : Bool} {settings settings' : Option String}
    {keys : List Key} {catalog : Catalog}
    (hcalc : Request.ofWords words = .run ⟨.calc script source keepPending true, settings⟩)
    (heval : Request.ofWords words' = .run ⟨.eval path source json, settings'⟩)
    (hkeys : Script.keys script = .ok keys) (hmemory : script.length < 2 ^ 63)
    (hsource : loadSource env source = .ok catalog)
    (hcatalog : ∀ path ∈ source.catalog, env'.read path = env.read path)
    (hinput : readInput env' path = .ok (run env words).out)
    (hexact : ∀ t ∈ (reportOf env settings catalog keepPending keys).tokens, t.data.Exact) :
    let report := reportOf env settings catalog keepPending keys
    (run env words).out = unlines [(reportJson report).pretty] ∧
      readTokens path (run env words).out = .ok report.tokens ∧
      TokenSequence.Loadable report.tokens ∧
      Formula.result report.tokens catalog.bindings = report.result ∧
      (run env' words').out =
        unlines [if json then (resultJson report.tokens catalog.bindings).pretty else report.result] ∧
      (run env words).code = codeOf report.result ∧ (run env' words').code = codeOf report.result := by
  intro report
  -- a script of this length cannot use the supply up
  have hroom : keys.length + 2 < TokenId.greatest.raw.toNat := by
    have hlength := Script.length_keys_le hkeys
    rw [TokenId.greatest_toNat]
    omega
  obtain ⟨hloadable, hresult⟩ := Replay.run_loadable catalog.lookup keepPending catalog.bindings
    (loadSettings env settings).1.editorOptions hroom (loadSettings env settings).1.debounceMs
  obtain ⟨hout, hcode⟩ := run_calc hcalc hkeys hsource
  have hfinite : ∀ t ∈ report.tokens, t.data.Finite := fun t ht => finite_of_check (hloadable.sound t ht)
  -- numbers that come back exactly leave the tokens as they are
  have hread : readTokens path (run env words).out = .ok report.tokens := by
    rw [hout, readTokens_report path hfinite, (Token.mapM_reread?_eq_self_iff _).2 hexact]
    rfl
  have hsource' : loadSource env' source = .ok catalog := by rw [loadSource_congr hcatalog, hsource]
  obtain ⟨hout', hcode'⟩ := run_eval heval hinput hread hloadable hsource'
  have hsame : Formula.result report.tokens catalog.bindings = report.result := hresult.symm
  rw [hsame] at hout' hcode'
  exact ⟨hout, hread, hloadable, hsame, hout', hcode, hcode'⟩

/-- A product with a variable goes from one command to the other through the standard input. -/
theorem eval_shows_calc_product :
    let words := ["calc", "2*x", "--var", "x=3", "--json"]
    let env : Environment :=
      { read := fun _ => .error "missing", exists? := fun _ => true, input := .ok "", settings := none,
        userSettings := "settings.json" }
    let env' := { env with input := .ok (run env words).out }
    (run env' ["eval", "-", "--var", "x=3"]).out = unlines ["6"] ∧
      (run env words).code = 0 ∧ (run env' ["eval", "-", "--var", "x=3"]).code = 0 := by
  intro words env env'
  have hkeys : Script.keys "2*x" = .ok [.char '2', .char '*', .char 'x'] := by cbv
  -- the first command, played once: its tokens are exact and its result is 6
  have hplayed : (loadSource env { bindings := ["x=3"] }).toOption.map (fun catalog =>
      let report := reportOf env none catalog false [.char '2', .char '*', .char 'x']
      (decide (∀ t ∈ report.tokens, t.data.Exact), report.result)) = some (true, "6") := by
    decide +kernel
  obtain ⟨catalog, hcatalog, heq⟩ := Option.map_eq_some_iff.1 hplayed
  obtain ⟨hexact, hresult⟩ := Prod.mk.inj heq
  have hsource : loadSource env { bindings := ["x=3"] } = .ok catalog := by
    cases h : loadSource env { bindings := ["x=3"] } <;> simp_all [Except.toOption]
  have hcalc : Request.ofWords words = .run ⟨.calc "2*x" { bindings := ["x=3"] } false true, none⟩ := by
    decide +kernel
  have heval : Request.ofWords ["eval", "-", "--var", "x=3"] =
      .run ⟨.eval "-" { bindings := ["x=3"] } false, none⟩ := by
    decide +kernel
  have hinput : readInput env' "-" = .ok (run env words).out := rfl
  obtain ⟨-, -, -, -, hout, hcode, hcode'⟩ :=
    eval_shows_calc hcalc heval hkeys (by decide) hsource (by simp) hinput (of_decide_eq_true hexact)
  rw [hresult] at hout hcode hcode'
  exact ⟨hout, hcode, hcode'⟩

end FormulaBar.CommandLine
