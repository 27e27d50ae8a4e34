import AgenticDynamics.Library.Python
import AgenticDynamics.Library.Runs

/-!
# The tail of a transcript

The watchdog of a phase polls the transcript: it looks at the size of the file, reads on from an
offset, and hands the complete lines to the step test. The file grows meanwhile, and is written
anew at the end of the phase.
-/

namespace AgenticDynamics.Execution

open Python Runs

abbrev Bytes := List UInt8

/-- `b"\n"`. -/
def newline : UInt8 := 10

def meaningfulEventTypes : List String :=
  ["step_start", "step_finish", "message", "text", "reasoning", "tool_use", "tool", "file", "add",
    "snapshot"]

/-- `_is_meaningful_step_event`; the line is parsed by `json.loads`, none where that raises. -/
def isMeaningfulStepEvent (loads : Bytes → Option Json) (line : Bytes) : Bool :=
  match loads line with
  | some (.obj fields) =>
    match Dict.get? "type" fields with
    | some (.str kind) => kind ∈ meaningfulEventTypes
    | _                => false
  | _ => false

/-! ### The poll -/

/-- The fields that a poll reads and writes. -/
structure PhaseWatchdog where
  lastActivity : ℕ := 0
  lastOffset : ℤ := 0
  lastSize : ℕ := 0

/-- The lines that are handed to the step test, and the offset of the next poll. -/
def takeLines (size : ℕ) (new : Bytes) : List Bytes × ℤ :=
  if new.getLast? = some newline then
    (if 1 < new.length then new.dropLast.splitOn newline else [], size)
  else
    let pieces := new.splitOn newline
    (if 1 < pieces.length then pieces.dropLast else [], size - (pieces.getLast?.getD []).length)

/-- `_poll_transcript`, with the size that `stat` reports, if the file is there, and what the file
holds when it is read: the lines handed to the step test, and the watchdog. A seek before the start
raises, which hands on nothing. -/
def PhaseWatchdog.pollTranscript (loads : Bytes → Option Json) (now : ℕ) (size : Option ℕ)
    (atRead : Bytes) (w : PhaseWatchdog) : List Bytes × PhaseWatchdog :=
  match size with
  | none      => ([], w)
  | some size =>
    let offset := if size < w.lastSize then 0 else w.lastOffset
    let w := { w with lastOffset := offset, lastSize := size }
    if (size : ℤ) ≤ offset ∨ offset < 0 then ([], w)
    else
      let (complete, next) := takeLines size (atRead.drop offset.toNat)
      let active := complete.any (isMeaningfulStepEvent loads)
      (complete, { w with
        lastOffset := next
        lastActivity := if active then now else w.lastActivity })

/-! ### The run -/

inductive Write
  | append (bytes : Bytes)
  | rewrite (bytes : Bytes)

/-- What happens: a write, or a poll with the writes between its look at the size and its read. -/
inductive TailStep
  | write (w : Write)
  | poll (now : ℕ) (between : List Write)

/-- The file and the watchdog, with the lines handed over since the file was last written anew,
whether that was after the last poll, and whether a poll was the last that happened. -/
structure Tail where
  file : Option Bytes := none
  watchdog : PhaseWatchdog := {}
  handed : List Bytes := []
  rewritten : Bool := false
  polled : Bool := false

def Tail.write (t : Tail) : Write → Tail
  | .append bytes  => { t with file := some (t.file.getD [] ++ bytes), polled := false }
  | .rewrite bytes => { t with file := some bytes, handed := [], rewritten := true, polled := false }

def Tail.step (loads : Bytes → Option Json) (t : Tail) : TailStep → Tail
  | .write w          => t.write w
  | .poll now between =>
    let after := between.foldl Tail.write t
    let (lines, watchdog) :=
      t.watchdog.pollTranscript loads now (t.file.map List.length) (after.file.getD [])
    { after with
      watchdog
      handed := after.handed ++ lines
      rewritten := between.any fun w => w matches .rewrite _
      polled := true }

def completeLines (bytes : Bytes) : List Bytes := (bytes.splitOn newline).dropLast

/-- After a poll the lines handed over are the complete lines of the file, each once. -/
def Tail.Exact (t : Tail) : Prop := t.polled → t.handed = completeLines (t.file.getD [])

/-- What a poll meets: nothing is written between its two looks at the file; a file written anew
since the last poll is smaller than it was then, or was read from its start anyway; and there is
more to read than one empty line. -/
def Tail.Quiet (t : Tail) : TailStep → Prop
  | .write _          => True
  | .poll _ between   =>
    between = [] ∧
      (t.rewritten → (t.file.getD []).length < t.watchdog.lastSize ∨ t.watchdog.lastOffset = 0) ∧
      (t.file.getD []).drop (if t.rewritten then 0 else t.watchdog.lastOffset.toNat) ≠ [newline]

/-! ### Lines -/

/-- The bytes end with a line, if there are any. -/
def Closed (bytes : Bytes) : Prop := bytes = [] ∨ ∃ init, bytes = init ++ [newline]

lemma completeLines_append {a b : Bytes} (h : Closed a) :
    completeLines (a ++ b) = completeLines a ++ completeLines b := by
  rcases h with rfl | ⟨init, rfl⟩
  · simp [completeLines]
  · have hb := List.splitOn_ne_nil newline b
    rw [List.append_assoc, List.singleton_append, completeLines, completeLines, completeLines,
      List.splitOn_append_cons_self, List.splitOn_append_cons_self,
      List.dropLast_append_of_ne_nil hb, List.dropLast_append_of_ne_nil (by simp)]
    simp

lemma exists_closed (bytes : Bytes) :
    ∃ closed, Closed closed ∧
      bytes = closed ++ ((bytes.splitOn newline).getLast?.getD []) ∧
      completeLines closed = completeLines bytes := by
  by_cases hnew : newline ∈ bytes
  · obtain ⟨last, init, hrev, hlast⟩ := List.eq_append_cons_of_mem (List.mem_reverse.mpr hnew)
    have hlast' : newline ∉ last.reverse := by rwa [List.mem_reverse]
    obtain rfl : bytes = init.reverse ++ newline :: last.reverse := by
      rw [← List.reverse_reverse bytes, hrev]
      simp
    refine ⟨init.reverse ++ [newline], .inr ⟨_, rfl⟩, ?_, ?_⟩
    · rw [List.splitOn_append_cons_self, List.splitOn_eq_singleton hlast']
      simp
    · rw [completeLines, completeLines, List.splitOn_append_cons_self,
        List.splitOn_append_cons_self, List.splitOn_eq_singleton hlast']
      simp
  · refine ⟨[], .inl rfl, ?_, ?_⟩
    · simp [List.splitOn_eq_singleton hnew]
    · simp [completeLines, List.splitOn_eq_singleton hnew]

lemma takeLines_spec {before new : Bytes} (hnew : new ≠ [newline]) :
    (takeLines (before ++ new).length new).1 = completeLines new ∧
      ∃ closed rest, new = closed ++ rest ∧ Closed closed ∧
        completeLines closed = completeLines new ∧
        (takeLines (before ++ new).length new).2 = (before ++ closed).length := by
  by_cases hlast : new.getLast? = some newline
  · rw [takeLines, if_pos hlast]
    obtain ⟨init, rfl⟩ : ∃ init, new = init ++ [newline] :=
      ⟨new.dropLast, (List.dropLast_append_getLast? _ hlast).symm⟩
    have hinit : init ≠ [] := by
      rintro rfl
      exact hnew rfl
    refine ⟨?_, _, [], by simp, .inr ⟨init, rfl⟩, rfl, by simp⟩
    dsimp only
    rw [if_pos (by simpa using List.length_pos_iff.mpr hinit), List.dropLast_concat, completeLines,
      List.splitOn_append_cons_self]
    simp
  · rw [takeLines, if_neg hlast]
    obtain ⟨closed, hclosed, hsplit, hlines⟩ := exists_closed new
    refine ⟨?_, closed, _, hsplit, hclosed, hlines, ?_⟩
    · dsimp only
      rw [completeLines]
      split_ifs with hmany
      · rfl
      · have hne := List.splitOn_ne_nil newline new
        rcases hpieces : new.splitOn newline with _ | ⟨piece, _ | ⟨second, rest⟩⟩
        · exact absurd hpieces hne
        · rfl
        · simp [hpieces] at hmany
    · have hlength := congrArg List.length hsplit
      rw [List.length_append] at hlength
      simp only [List.length_append]
      omega

/-! ### What every step keeps -/

/-- The watchdog stands behind the complete lines that it handed over; of a file written anew it
has handed over none. -/
structure Tail.Sound (t : Tail) : Prop where
  place : t.rewritten = false → ∃ closed rest, t.file.getD [] = closed ++ rest ∧ Closed closed ∧
    t.watchdog.lastOffset = closed.length ∧ t.handed = completeLines closed ∧
    t.watchdog.lastSize ≤ (t.file.getD []).length
  anew : t.rewritten → t.handed = [] ∧ 0 ≤ t.watchdog.lastOffset
  there : t.rewritten → t.file.isSome
  exact : t.Exact

lemma Tail.Sound.write {t : Tail} (h : t.Sound) (w : Write) : (t.write w).Sound := by
  cases w with
  | append bytes =>
    refine ⟨fun hold => ?_, h.anew, fun _ => rfl, nofun⟩
    obtain ⟨closed, rest, hfile, hclosed, hoffset, hhanded, hsize⟩ := h.place hold
    refine ⟨closed, rest ++ bytes, ?_, hclosed, hoffset, hhanded, ?_⟩
    · simp [Tail.write, hfile]
    · simp only [Tail.write, Option.getD_some, List.length_append]
      omega
  | rewrite bytes =>
    refine ⟨nofun, fun _ => ⟨rfl, ?_⟩, fun _ => rfl, nofun⟩
    cases hold : t.rewritten with
    | true => exact (h.anew hold).2
    | false =>
      obtain ⟨closed, rest, -, -, hoffset, -⟩ := h.place hold
      exact hoffset ▸ Int.natCast_nonneg _

lemma Tail.Sound.reads {t : Tail} (h : t.Sound) {file : Bytes} (hfile : t.file = some file)
    (hanew : t.rewritten → file.length < t.watchdog.lastSize ∨ t.watchdog.lastOffset = 0) :
    ∃ closed rest, file = closed ++ rest ∧ Closed closed ∧ t.handed = completeLines closed ∧
      (if file.length < t.watchdog.lastSize then 0 else t.watchdog.lastOffset) = closed.length ∧
      (if t.rewritten then 0 else t.watchdog.lastOffset.toNat) = closed.length := by
  cases hold : t.rewritten with
  | true =>
    refine ⟨[], file, rfl, .inl rfl, (h.anew hold).1, ?_, rfl⟩
    rcases hanew hold with hsmaller | hzero
    · rw [if_pos hsmaller]
      rfl
    · simp [hzero]
  | false =>
    obtain ⟨closed, rest, hsplit, hclosed, hoffset, hhanded, hsize⟩ := h.place hold
    rw [hfile, Option.getD_some] at hsplit hsize
    exact ⟨closed, rest, hsplit, hclosed, hhanded, by rw [if_neg (by omega), hoffset],
      by simp [hoffset]⟩

lemma Tail.Sound.step {loads : Bytes → Option Json} {t : Tail} {i : TailStep} (h : t.Sound)
    (hquiet : t.Quiet i) : (t.step loads i).Sound := by
  cases i with
  | write w => exact h.write w
  | poll now between =>
    obtain ⟨rfl, hanew, hmore⟩ := hquiet
    cases hfile : t.file with
    | none =>
      have hold : t.rewritten = false := by
        by_contra hrewritten
        simpa [hfile] using h.there (by simpa using hrewritten)
      obtain ⟨closed, rest, hsplit, hclosed, hoffset, hhanded, hsize⟩ := h.place hold
      obtain ⟨rfl, rfl⟩ := List.append_eq_nil_iff.mp (by simpa [hfile] using hsplit.symm)
      simp only [Tail.step, List.foldl_nil, hfile, Option.map_none, PhaseWatchdog.pollTranscript,
        List.append_nil]
      refine ⟨fun _ => ⟨[], [], rfl, hclosed, hoffset, hhanded, ?_⟩, nofun, nofun,
        fun _ => hhanded⟩
      simpa [hfile] using hsize
    | some file =>
      rw [hfile, Option.getD_some] at hanew hmore
      obtain ⟨closed, rest, hsplit, hclosed, hhanded, hoffset, hplace⟩ := h.reads hfile hanew
      rw [hplace, hsplit, List.drop_left] at hmore
      simp only [Tail.step, List.foldl_nil, hfile, Option.map_some, PhaseWatchdog.pollTranscript,
        Option.getD_some, hoffset, List.any_nil]
      by_cases hend : (file.length : ℤ) ≤ closed.length ∨ (closed.length : ℤ) < 0
      · rw [if_pos hend]
        have hrest : rest = [] := by
          rcases hend with hend | hend
          · rw [hsplit, List.length_append] at hend
            exact List.length_eq_zero_iff.mp (by omega)
          · omega
        have hall : file = closed := by rw [hsplit, hrest, List.append_nil]
        refine ⟨fun _ => ⟨closed, rest, hsplit, hclosed, rfl, ?_, le_rfl⟩, nofun, nofun, fun _ => ?_⟩
        · simpa using hhanded
        · simpa [hall] using hhanded
      · rw [if_neg hend]
        obtain ⟨hlines, closed', rest', hnew, hclosed', hsame, hnext⟩ :=
          @takeLines_spec closed rest hmore
        have hfile' : file.drop closed.length = rest := by rw [hsplit, List.drop_left]
        simp only [Int.toNat_natCast, hfile']
        rw [← hsplit] at hlines hnext
        have hhanded' : t.handed ++ (takeLines file.length rest).1 = completeLines file := by
          rw [hlines, hhanded, hsplit, completeLines_append hclosed]
        refine ⟨fun _ => ⟨closed ++ closed', rest', ?_, ?_, hnext, ?_, le_rfl⟩, nofun, nofun,
          fun _ => hhanded'⟩
        · rw [Option.getD_some, List.append_assoc, ← hnew, ← hsplit]
        · rcases hclosed' with rfl | ⟨init, rfl⟩
          · rwa [List.append_nil]
          · exact .inr ⟨closed ++ init, by rw [List.append_assoc]⟩
        · rw [hhanded', hsplit, completeLines_append hclosed, completeLines_append hclosed, hsame]

/-- In a run whose polls all meet the condition every poll leaves the complete lines of the file
handed over, each once and in their order, since the file was last written anew. -/
theorem poll_transcript_exact (loads : Bytes → Option Json) (steps : List TailStep)
    (h : Along (Tail.step loads) Tail.Quiet {} steps) :
    Throughout (Tail.step loads) Tail.Exact {} steps := by
  intro before hbefore
  have hstart : Tail.Sound {} :=
    ⟨fun _ => ⟨[], [], rfl, .inl rfl, rfl, rfl, le_rfl⟩, nofun, nofun, nofun⟩
  exact ((h.of_prefix hbefore).preserves (fun t i ht hi => ht.step hi) hstart).exact

/-- Lines that are split between appends, and a file written anew. -/
theorem poll_transcript_exact_split :
    Throughout (Tail.step fun _ => none) Tail.Exact {}
      [.write (.append [97, 10, 98]), .poll 1 [], .write (.append [99, 10]), .poll 2 [],
        .write (.rewrite [100, 10]), .poll 3 []] := by
  refine poll_transcript_exact _ _ ⟨trivial, ?_, trivial, ?_, trivial, ?_, trivial⟩ <;>
    exact ⟨rfl, by decide, by decide⟩

/-- A line that is appended between the look at the size and the read is handed over twice. -/
theorem append_between_repeats :
    ¬ Throughout (Tail.step fun _ => none) Tail.Exact {}
      [.write (.append [97, 10]), .poll 1 [.append [98, 10]], .poll 2 []] := by
  intro h
  exact absurd (h _ (List.prefix_refl _) rfl) (by decide)

end AgenticDynamics.Execution
