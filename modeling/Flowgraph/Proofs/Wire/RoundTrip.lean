import Flowgraph.Proofs.Json.Record
import Flowgraph.Wire.Diagnostics
import Flowgraph.Wire.Run
/-!
# Levels, worlds, verdicts and diagnostics there and back

What is printed of a value is read as the value, whatever its lists, texts and flags are, as long as
its counts fit in the integers of the wire.
-/
namespace Flowgraph

open Json

/-! The counts -/

def World.InRange (w : World) : Prop := w.stepCount < UInt32.size

structure Outcome.InRange (o : Outcome) : Prop where
  steps : o.stepCount < UInt32.size
  final : ∀ w ∈ o.finalState, w.InRange

structure Diagnostics.InRange (ds : Diagnostics) : Prop where
  errors : ds.totalErrors < UInt64.size
  warnings : ds.totalWarnings < UInt64.size

theorem Coord.codec_givesBack (c : Coord) : codec.GivesBack c c := by
  have := c.lower
  have := c.upper
  apply Codec.integer_givesBack
  · omega
  · omega
  · exact c.ofInt?_val

theorem Level.count_givesBack (n : UInt32) : count.GivesBack n n := by
  have h : n.toNat < UInt32.size := n.toNat_lt
  have hsize : UInt32.size = 4294967296 := rfl
  apply Codec.integer_givesBack
  · omega
  · omega
  · simp [h]

theorem Code.codec_givesBack (c : Code) : codec.GivesBack c c := by
  have h : c.number.toNat < UInt16.size := c.number.toNat_lt
  have hsize : UInt16.size = 65536 := rfl
  apply Codec.integer_givesBack
  · omega
  · omega
  · simp [h]

/-! Grids and levels -/

theorem Position.codec_givesBack (p : Position) : codec.GivesBack p p := by
  have hfields : fields.GivesBack (p.x, p.y, ()) (p.x, p.y, ()) :=
    ⟨Field.required_givesBack p.x.codec_givesBack, Field.required_givesBack p.y.codec_givesBack,
      trivial⟩
  exact .map (Fields.codec_givesBack (by decide) hfields) rfl

theorem Cell.codec_givesBack (c : Cell) : codec.GivesBack c c := by
  have hfields : fields.GivesBack (c.kind, c.x, c.y, ()) (c.kind, c.x, c.y, ()) :=
    ⟨Field.required_givesBack (Codec.word_givesBack _), Field.required_givesBack c.x.codec_givesBack,
      Field.required_givesBack c.y.codec_givesBack, trivial⟩
  exact .map (Fields.codec_givesBack (by decide) hfields) rfl

theorem Grid.codec_givesBack (g : Grid) : codec.GivesBack g g := by
  have hrows : Cell.codec.list.list.GivesBack g.rows g.rows := by
    apply Codec.list_givesBack_self
    intro row _
    apply Codec.list_givesBack_self
    intro c _
    exact c.codec_givesBack
  exact .map hrows rfl

theorem texts_givesBack (texts : List String) : Codec.text.list.GivesBack texts texts :=
  Codec.list_givesBack_self fun s _ => Codec.text_givesBack s

theorem Level.codec_givesBack (l : Level) : codec.GivesBack l l := by
  have hfields : fields.GivesBack
      (l.id, l.name, l.description, l.grid, l.startPosition, l.startDirection, l.goalPosition,
        l.maxSteps, l.minSteps, l.difficulty, l.hints, l.requiredActions, ())
      (l.id, l.name, l.description, l.grid, l.startPosition, l.startDirection, l.goalPosition,
        l.maxSteps, l.minSteps, l.difficulty, l.hints, l.requiredActions, ()) :=
    ⟨Field.required_givesBack (Codec.text_givesBack _),
      Field.required_givesBack (Codec.text_givesBack _),
      Field.defaulted_givesBack (Codec.text_givesBack _),
      Field.required_givesBack l.grid.codec_givesBack,
      Field.required_givesBack l.startPosition.codec_givesBack,
      Field.required_givesBack (Codec.word_givesBack _),
      Field.required_givesBack l.goalPosition.codec_givesBack,
      Field.required_givesBack (Level.count_givesBack _),
      Field.optional_givesBack (fun n _ => Level.count_givesBack n) nofun,
      Field.optional_givesBack (fun d _ => Codec.word_givesBack d) nofun,
      Field.optional_givesBack (fun texts _ => texts_givesBack texts) nofun,
      Field.optional_givesBack (fun texts _ => texts_givesBack texts) nofun, trivial⟩
  exact .map (Fields.codec_givesBack (by decide) hfields) rfl

/-! Worlds and verdicts -/

theorem Character.codec_givesBack (c : Character) : codec.GivesBack c c := by
  have hfields : fields.GivesBack (c.position, c.direction, ()) (c.position, c.direction, ()) :=
    ⟨Field.required_givesBack c.position.codec_givesBack,
      Field.required_givesBack (Codec.word_givesBack _), trivial⟩
  exact .map (Fields.codec_givesBack (by decide) hfields) rfl

theorem World.count_givesBack {n : Nat} (h : n < UInt32.size) : count.GivesBack n n :=
  Codec.natBelow_givesBack h (by decide)

theorem World.codec_givesBack {w : World} (h : w.InRange) : codec.GivesBack w w := by
  have hfields : fields.GivesBack
      (w.character, w.grid, w.stepCount, w.isComplete, w.isFailed, w.failureReason, w.lastAction, ())
      (w.character, w.grid, w.stepCount, w.isComplete, w.isFailed, w.failureReason, w.lastAction,
        ()) :=
    ⟨Field.required_givesBack w.character.codec_givesBack,
      Field.required_givesBack w.grid.codec_givesBack,
      Field.required_givesBack (World.count_givesBack h),
      Field.required_givesBack (Codec.bool_givesBack _),
      Field.required_givesBack (Codec.bool_givesBack _),
      Field.optional_givesBack (fun r _ => Codec.word_givesBack r) nofun,
      Field.optional_givesBack (fun a _ => Codec.word_givesBack a) nofun, trivial⟩
  exact .map (Fields.codec_givesBack (by decide) hfields) rfl

theorem Outcome.codec_givesBack {o : Outcome} (h : o.InRange) : codec.GivesBack o o := by
  have hfields : fields.GivesBack (o.success, o.stepCount, o.message, o.finalState, ())
      (o.success, o.stepCount, o.message, o.finalState, ()) :=
    ⟨Field.required_givesBack (Codec.bool_givesBack _),
      Field.required_givesBack (World.count_givesBack h.steps),
      Field.required_givesBack (Codec.text_givesBack _),
      Field.optional_givesBack (fun w hw => World.codec_givesBack (h.final w hw))
        (fun _ _ => Fields.codec_write_ne_null "WorldState" _), trivial⟩
  exact .map (Fields.codec_givesBack (by decide) hfields) rfl

theorem Config.codec_givesBack (c : Config) : codec.GivesBack c c := by
  have hfields : fields.GivesBack (c.maxExecutionSteps, ()) (c.maxExecutionSteps, ()) :=
    ⟨Field.defaulted_givesBack (Level.count_givesBack _), trivial⟩
  exact .map (Fields.codec_givesBack (by decide) hfields) rfl

/-! Diagnostics -/

theorem Diagnostic.codec_givesBack (d : Diagnostic) : codec.GivesBack d d := by
  have hfields : fields.GivesBack
      (d.code, d.severity, d.category, d.message, d.nodeId, d.edgeId, ())
      (d.code, d.severity, d.category, d.message, d.nodeId, d.edgeId, ()) :=
    ⟨Field.required_givesBack d.code.codec_givesBack,
      Field.required_givesBack (Codec.word_givesBack _),
      Field.required_givesBack (Codec.word_givesBack _),
      Field.required_givesBack (Codec.text_givesBack _),
      Field.optional_text_givesBack _, Field.optional_text_givesBack _, trivial⟩
  exact .map (Fields.codec_givesBack (by decide) hfields) rfl

theorem Diagnostics.codec_givesBack {ds : Diagnostics} (h : ds.InRange) :
    codec.GivesBack ds ds := by
  have hlist (found : List Diagnostic) : Diagnostic.codec.list.GivesBack found found :=
    Codec.list_givesBack_self fun d _ => d.codec_givesBack
  have htotal {n : Nat} (hn : n < UInt64.size) : total.GivesBack n n :=
    Codec.natBelow_givesBack hn (by simp)
  have hfields : fields.GivesBack (ds.errors, ds.warnings, ds.totalErrors, ds.totalWarnings, ())
      (ds.errors, ds.warnings, ds.totalErrors, ds.totalWarnings, ()) :=
    ⟨Field.required_givesBack (hlist _), Field.required_givesBack (hlist _),
      Field.required_givesBack (htotal h.errors), Field.required_givesBack (htotal h.warnings),
      trivial⟩
  exact .map (Fields.codec_givesBack (by decide) hfields) rfl

theorem Verdict.codec_givesBack (v : Verdict) : codec.GivesBack v v := by
  have hfields : fields.GivesBack (v.valid, v.errors, ()) (v.valid, v.errors, ()) :=
    ⟨Field.required_givesBack (Codec.bool_givesBack _),
      Field.required_givesBack (texts_givesBack _), trivial⟩
  exact .map (Fields.codec_givesBack (by decide) hfields) rfl

/-- Whatever a value is made of, decoding what was printed of it succeeds and gives it back. -/
theorem values_given_back :
    (∀ l : Level, Level.codec.parse (Level.codec.print l) = .ok l) ∧
      (∀ w : World, w.InRange → World.codec.parse (World.codec.print w) = .ok w) ∧
      (∀ o : Outcome, o.InRange → Outcome.codec.parse (Outcome.codec.print o) = .ok o) ∧
      (∀ ds : Diagnostics, ds.InRange →
        Diagnostics.codec.parse (Diagnostics.codec.print ds) = .ok ds) ∧
      (∀ v : Verdict, Verdict.codec.parse (Verdict.codec.print v) = .ok v) ∧
      ∀ c : Config, Config.codec.parse (Config.codec.print c) = .ok c := by
  refine ⟨?level, ?world, ?outcome, ?diagnostics, ?verdict, ?config⟩
  case level =>
    intro l
    exact l.codec_givesBack.parse_print
  case world =>
    intro w h
    exact (World.codec_givesBack h).parse_print
  case outcome =>
    intro o h
    exact (Outcome.codec_givesBack h).parse_print
  case diagnostics =>
    intro ds h
    exact (Diagnostics.codec_givesBack h).parse_print
  case verdict =>
    intro v
    exact v.codec_givesBack.parse_print
  case config =>
    intro c
    exact c.codec_givesBack.parse_print

def raggedLevel : Level where
  id := ""
  name := ""
  grid := ⟨[[], [⟨.goal, .clamp (-2147483648), .clamp 2147483647⟩], []]⟩
  startPosition := ⟨.clamp 7, .clamp (-7)⟩
  startDirection := .west
  goalPosition := ⟨.clamp 0, .clamp 0⟩
  maxSteps := 4294967295
  minSteps := some 0
  hints := some []
  requiredActions := some ["", "quote \" and line\n"]

def confusedWorld : World where
  character := ⟨⟨.clamp (-1), .clamp 9⟩, .north⟩
  grid := ⟨[]⟩
  stepCount := 4294967295
  isComplete := true
  isFailed := true
  lastAction := some .moveBlocked

def miscounted : Diagnostics where
  errors := [⟨⟨65535⟩, .warning, .edge, "", some "", none⟩]
  warnings := []
  totalErrors := 0
  totalWarnings := 18446744073709551615

theorem oddities_given_back :
    Level.codec.parse (Level.codec.print raggedLevel) = .ok raggedLevel ∧
      (confusedWorld.InRange ∧
        World.codec.parse (World.codec.print confusedWorld) = .ok confusedWorld) ∧
      (Outcome.InRange ⟨true, 3, "", some confusedWorld⟩ ∧
        Outcome.codec.parse (Outcome.codec.print ⟨true, 3, "", some confusedWorld⟩) =
          .ok ⟨true, 3, "", some confusedWorld⟩) ∧
      (miscounted.InRange ∧
        Diagnostics.codec.parse (Diagnostics.codec.print miscounted) = .ok miscounted) := by
  have hworld : confusedWorld.InRange := (by decide : 4294967295 < UInt32.size)
  have houtcome : Outcome.InRange ⟨true, 3, "", some confusedWorld⟩ := by
    refine ⟨by decide, ?_⟩
    rintro w ⟨rfl⟩
    exact hworld
  have hmiscounted : miscounted.InRange := ⟨by decide, by decide⟩
  obtain ⟨level, world, outcome, diagnostics, -⟩ := values_given_back
  exact ⟨level raggedLevel, ⟨hworld, world _ hworld⟩, ⟨houtcome, outcome _ houtcome⟩,
    ⟨hmiscounted, diagnostics _ hmiscounted⟩⟩

end Flowgraph
