import ActionAtlas.Syntax.Builder

/-!
# Lines are counted by newlines

The table of line starts is increasing, so a search in it ends at the last line that starts no later than
an offset, whether or not a line starts just there. The number of such lines is the number of newlines
before the offset, and one more for the first line. A builder looks this number up for every node that it
begins and never changes it.
-/

namespace ActionAtlas.Syntax

def newlinesBefore (source : String) (offset : Nat) : Nat :=
  (source.toUTF8.data.toList.take offset).count 10

/-! ## The table of line starts -/

theorem toNat_start {offset : Nat} (h : offset + 1 < UInt32.size) :
    (UInt32.ofNat (offset + 1)).toNat = offset + 1 :=
  UInt32.toNat_ofNat_of_lt' h

theorem lt_of_mem_starts {offset : Nat} {bytes : List UInt8}
    (hfit : offset + bytes.length < UInt32.size) {start : UInt32}
    (h : start ∈ startsAfterNewlines offset bytes) : offset < start.toNat := by
  induction bytes generalizing offset with
  | nil => simp [startsAfterNewlines] at h
  | cons byte rest ih =>
      rw [List.length_cons] at hfit
      have hrest : start ∈ startsAfterNewlines (offset + 1) rest → offset < start.toNat := by
        intro hmem
        have hlt := ih (by omega) hmem
        omega
      unfold startsAfterNewlines at h
      by_cases hbyte : byte = 10
      · rw [if_pos hbyte, List.mem_cons] at h
        rcases h with rfl | hmem
        · rw [toNat_start (by omega)]
          omega
        · exact hrest hmem
      · rw [if_neg hbyte] at h
        exact hrest h

theorem starts_increasing {offset : Nat} {bytes : List UInt8}
    (hfit : offset + bytes.length < UInt32.size) :
    (startsAfterNewlines offset bytes).Pairwise (·.toNat < ·.toNat) := by
  induction bytes generalizing offset with
  | nil => exact .nil
  | cons byte rest ih =>
      rw [List.length_cons] at hfit
      have hrest : offset + 1 + rest.length < UInt32.size := by omega
      unfold startsAfterNewlines
      by_cases hbyte : byte = 10
      · rw [if_pos hbyte]
        refine .cons ?_ (ih hrest)
        intro start hstart
        rw [toNat_start (by omega)]
        exact lt_of_mem_starts hrest hstart
      · rw [if_neg hbyte]
        exact ih hrest

theorem countP_starts {offset : Nat} {bytes : List UInt8}
    (hfit : offset + bytes.length < UInt32.size) (stop : Nat) :
    (startsAfterNewlines offset bytes).countP (·.toNat ≤ stop) =
      (bytes.take (stop - offset)).count 10 := by
  induction bytes generalizing offset with
  | nil => simp [startsAfterNewlines]
  | cons byte rest ih =>
      rw [List.length_cons] at hfit
      have hrest : (startsAfterNewlines (offset + 1) rest).countP (·.toNat ≤ stop) =
          (rest.take (stop - (offset + 1))).count 10 := ih (by omega)
      have hstart : (UInt32.ofNat (offset + 1)).toNat = offset + 1 := toNat_start (by omega)
      unfold startsAfterNewlines
      -- the newline at `offset` counts exactly when its line starts no later than `stop`
      by_cases hstop : offset + 1 ≤ stop
      · have htake : stop - offset = stop - (offset + 1) + 1 := by omega
        rw [htake, List.take_succ_cons]
        by_cases hbyte : byte = 10
        · rw [if_pos hbyte, List.countP_cons, hrest, hstart, hbyte]
          simp [hstop]
        · rw [if_neg hbyte, hrest]
          simp [hbyte]
      · have htake : stop - offset = 0 := by omega
        have hnone : stop - (offset + 1) = 0 := by omega
        rw [hnone, List.take_zero, List.count_nil] at hrest
        rw [htake, List.take_zero, List.count_nil]
        by_cases hbyte : byte = 10
        · rw [if_pos hbyte, List.countP_cons, hrest, hstart]
          simp [hstop]
        · rw [if_neg hbyte, hrest]

namespace LineIndex

/-! ## Searching an increasing table -/

/-- What a spot says about the table that was searched: the offset stands there, or everything before the
spot is smaller and everything from it on is larger. -/
inductive Spot.Fits (starts : List UInt32) (offset : Nat) : Spot → Prop where
  | taken {before after : List UInt32} {start : UInt32} (parts : starts = before ++ start :: after)
      (here : start.toNat = offset) : Fits starts offset (.taken before.length)
  | free {before after : List UInt32} (parts : starts = before ++ after)
      (below : ∀ start ∈ before, start.toNat < offset)
      (above : ∀ start ∈ after, offset < start.toNat) : Fits starts offset (.free before.length)

theorem countP_parts {before after : List UInt32} {offset : Nat}
    (below : ∀ start ∈ before, start.toNat ≤ offset)
    (above : ∀ start ∈ after, offset < start.toNat) :
    (before ++ after).countP (·.toNat ≤ offset) = before.length := by
  have hbefore : before.countP (·.toNat ≤ offset) = before.length :=
    List.countP_eq_length.mpr fun start hstart => by simpa using below start hstart
  have hafter : after.countP (·.toNat ≤ offset) = 0 :=
    List.countP_eq_zero.mpr fun start hstart => by simpa using above start hstart
  rw [List.countP_append, hbefore, hafter, Nat.add_zero]

/-- In an increasing table that begins no later than the offset, either outcome of a search leads to the
last line that starts no later than the offset. -/
theorem Spot.Fits.linePosition_succ {starts : List UInt32} {offset : Nat} {spot : Spot}
    (h : spot.Fits starts offset) (hincreasing : starts.Pairwise (·.toNat < ·.toNat))
    (hfirst : 0 < starts.countP (·.toNat ≤ offset)) :
    spot.linePosition + 1 = starts.countP (·.toNat ≤ offset) := by
  cases h with
  | @taken before after start parts here =>
      rw [parts, List.pairwise_append, List.pairwise_cons] at hincreasing
      obtain ⟨_, ⟨hafter, _⟩, hbefore⟩ := hincreasing
      have hbelow : ∀ other ∈ before ++ [start], other.toNat ≤ offset := by
        intro other hother
        rcases List.mem_append.mp hother with hother | hother
        · have hlt := hbefore other hother start List.mem_cons_self
          omega
        · rw [List.mem_singleton.mp hother]
          omega
      have habove : ∀ other ∈ after, offset < other.toNat := by
        intro other hother
        have hlt := hafter other hother
        omega
      have hcount := countP_parts hbelow habove
      rw [List.append_assoc, List.singleton_append, ← parts, List.length_append] at hcount
      simpa [Spot.linePosition] using hcount.symm
  | @free before after parts below above =>
      have hcount := countP_parts (fun start hstart => Nat.le_of_lt (below start hstart)) above
      rw [← parts] at hcount
      simp only [Spot.linePosition]
      omega

/-- An increasing table around one of its positions. -/
theorem parts_at {starts : Array UInt32} (hincreasing : starts.toList.Pairwise (·.toNat < ·.toNat))
    {position : Nat} (h : position < starts.size) :
    ∃ start, starts[position]? = some start ∧
      starts.toList = starts.toList.take position ++ start :: starts.toList.drop (position + 1) ∧
      (∀ other ∈ starts.toList.take (position + 1), other.toNat ≤ start.toNat) ∧
      ∀ other ∈ starts.toList.drop position, start.toNat ≤ other.toNat := by
  have hlength : position < starts.toList.length := by simpa using h
  have hdrop : starts.toList.drop position =
      starts[position] :: starts.toList.drop (position + 1) :=
    List.drop_eq_getElem_cons hlength
  have htake : starts.toList.take (position + 1) =
      starts.toList.take position ++ [starts[position]] :=
    (List.take_append_getElem hlength).symm
  have hparts : starts.toList = starts.toList.take position ++
      starts[position] :: starts.toList.drop (position + 1) := by
    rw [← hdrop, List.take_append_drop]
  refine ⟨starts[position], Array.getElem?_eq_getElem h, hparts, ?_, ?_⟩
  all_goals
    rw [hparts, List.pairwise_append, List.pairwise_cons] at hincreasing
    obtain ⟨_, ⟨hafter, _⟩, hbefore⟩ := hincreasing
    intro other hother
  · rw [htake, List.mem_append, List.mem_singleton] at hother
    rcases hother with hother | rfl
    · exact Nat.le_of_lt (hbefore other hother _ List.mem_cons_self)
    · exact Nat.le_refl _
  · rw [hdrop, List.mem_cons] at hother
    rcases hother with rfl | hother
    · exact Nat.le_refl _
    · exact Nat.le_of_lt (hafter other hother)

theorem search_fits {starts : Array UInt32} {offset low high : Nat}
    (hincreasing : starts.toList.Pairwise (·.toNat < ·.toNat)) (hlow : low ≤ high)
    (hhigh : high ≤ starts.size) (below : ∀ start ∈ starts.toList.take low, start.toNat < offset)
    (above : ∀ start ∈ starts.toList.drop high, offset < start.toNat) :
    (search starts offset low high).Fits starts.toList offset := by
  -- what lies outside of `[low, high)` is known to be smaller on the left and larger on the right
  fun_induction search starts offset low high with
  | case1 low high hlt middle start hhere =>
      have hmiddle : middle < starts.size := by omega
      obtain ⟨found, hfound, hparts, _, _⟩ := parts_at hincreasing hmiddle
      have hoffset : found.toNat = offset := by simpa [start, hfound] using hhere
      have hlength : (starts.toList.take middle).length = middle := by simp; omega
      have hfits := Spot.Fits.taken hparts hoffset
      rwa [hlength] at hfits
  | case2 low high hlt middle start hne hsmaller ih =>
      have hmiddle : middle < starts.size := by omega
      obtain ⟨found, hfound, _, hupto, _⟩ := parts_at hincreasing hmiddle
      have hoffset : found.toNat < offset := by simpa [start, hfound] using hsmaller
      refine ih (by omega) hhigh ?_ above
      intro other hother
      exact Nat.lt_of_le_of_lt (hupto other hother) hoffset
  | case3 low high hlt middle start hne hlarger ih =>
      have hmiddle : middle < starts.size := by omega
      obtain ⟨found, hfound, _, _, hfrom⟩ := parts_at hincreasing hmiddle
      have hoffset : offset < found.toNat := by
        have hstart : start = found.toNat := by simp [start, hfound]
        omega
      refine ih (by omega) (by omega) below ?_
      intro other hother
      exact Nat.lt_of_lt_of_le hoffset (hfrom other hother)
  | case4 low high hdone =>
      have hsame : low = high := by omega
      have hlength : (starts.toList.take low).length = low := by simp; omega
      rw [← hsame] at above
      have hfits := Spot.Fits.free (List.take_append_drop low starts.toList).symm below above
      rwa [hlength] at hfits

/-! ## The line of an offset -/

theorem ofText_increasing {source : String} (hfit : source.utf8ByteSize < UInt32.size) :
    (ofText source).starts.toList.Pairwise (·.toNat < ·.toNat) := by
  have hbytes : 0 + source.toUTF8.data.toList.length < UInt32.size := by simpa using hfit
  refine .cons ?_ (starts_increasing hbytes)
  intro start hstart
  exact lt_of_mem_starts hbytes hstart

theorem ofText_countP {source : String} (hfit : source.utf8ByteSize < UInt32.size) (offset : Nat) :
    (ofText source).starts.toList.countP (·.toNat ≤ offset) = 1 + newlinesBefore source offset := by
  have hbytes : 0 + source.toUTF8.data.toList.length < UInt32.size := by simpa using hfit
  have hcount := countP_starts hbytes offset
  rw [Nat.sub_zero] at hcount
  simp only [ofText, newlinesBefore, ← hcount, List.countP_cons]
  simp [Nat.add_comm]

theorem toNat_lineOf {source : String} (hfit : source.utf8ByteSize < UInt32.size - 1) (offset : Nat) :
    ((ofText source).lineOf offset).toNat = 1 + newlinesBefore source offset := by
  have hincreasing := ofText_increasing (by omega : source.utf8ByteSize < UInt32.size)
  have hcount := ofText_countP (by omega : source.utf8ByteSize < UInt32.size) offset
  have hfits : (search (ofText source).starts offset 0 (ofText source).starts.size).Fits
      (ofText source).starts.toList offset := by
    apply search_fits hincreasing (Nat.zero_le _) (Nat.le_refl _)
    · simp
    · simp [← Array.length_toList]
  have hline := hfits.linePosition_succ hincreasing (by omega)
  have hfew : newlinesBefore source offset ≤ source.utf8ByteSize := by
    have htaken := List.length_take_le' offset source.toUTF8.data.toList
    have hcounted : newlinesBefore source offset ≤ _ := List.count_le_length
    have hbytes : source.toUTF8.data.toList.length = source.utf8ByteSize := by simp
    omega
  rw [lineOf, hline, hcount]
  exact UInt32.toNat_ofNat_of_lt' (show 1 + newlinesBefore source offset < UInt32.size by omega)

end LineIndex

/-! ## The lines of a built tree -/

def Step.opened? : Step → Option Span
  | .enter _ span => some span
  | .leaf _ span => some span
  | .leave => none
  | .hint _ _ => none

namespace Builder

/-- Where each node of a table stands, and the line recorded for it. -/
def marks (nodes : Array Node) : List (Span × UInt32) :=
  nodes.toList.map fun node => (node.span, node.line)

theorem marks_modify (nodes : Array Node) (pos : Nat) {change : Node → Node}
    (h : ∀ node, (change node).span = node.span ∧ (change node).line = node.line) :
    marks (nodes.modify pos change) = marks nodes := by
  apply List.ext_getElem?
  intro place
  simp only [marks, List.getElem?_map, Array.getElem?_toList, Array.getElem?_modify]
  by_cases hplace : pos = place
  · cases hnode : nodes[place]? with
    | none => simp
    | some node => simp [hplace, h node]
  · simp [hplace]

theorem marks_enter (builder : Builder) (kind : Kind) (span : Span) :
    marks (builder.enter kind span).nodes =
      marks builder.nodes ++ [(span, builder.lines.lineOf span.start)] := by
  rw [enter, marks_modify]
  · simp [marks]
  · exact fun _ => ⟨rfl, rfl⟩

theorem marks_contract (nodes : Array Node) (pos : Nat) :
    marks (contract nodes pos) = marks nodes := by
  unfold contract
  split
  · rw [marks_modify, marks_modify, marks_modify]
    all_goals exact fun _ => ⟨rfl, rfl⟩
  · rfl

theorem marks_leave (builder : Builder) : marks builder.leave.nodes = marks builder.nodes := by
  unfold leave
  split
  · rfl
  · exact marks_contract builder.nodes _

theorem marks_setHint (builder : Builder) (pos : Nat) (text : String) :
    marks (builder.setHint pos text).nodes = marks builder.nodes := by
  apply marks_modify
  exact fun _ => ⟨rfl, rfl⟩

theorem lines_leave (builder : Builder) : builder.leave.lines = builder.lines := by
  unfold leave
  split <;> rfl

theorem lines_run (builder : Builder) (step : Step) : (builder.run step).lines = builder.lines := by
  cases step with
  | enter kind span => rfl
  | leaf kind span => exact lines_leave _
  | leave => exact builder.lines_leave
  | hint pos text => rfl

theorem marks_run (builder : Builder) (step : Step) :
    marks (builder.run step).nodes =
      marks builder.nodes ++
        step.opened?.toList.map fun span => (span, builder.lines.lineOf span.start) := by
  cases step with
  | enter kind span => exact builder.marks_enter kind span
  | leaf kind span => exact (marks_leave _).trans (builder.marks_enter kind span)
  | leave => simp [run, Step.opened?, marks_leave]
  | hint pos text => simp [run, Step.opened?, marks_setHint]

theorem marks_foldl_run (builder : Builder) (steps : List Step) :
    marks (steps.foldl run builder).nodes =
      marks builder.nodes ++
        (steps.filterMap Step.opened?).map fun span => (span, builder.lines.lineOf span.start) := by
  induction steps generalizing builder with
  | nil => simp
  | cons step rest ih =>
      rw [List.foldl_cons, ih, marks_run, lines_run]
      cases hopened : step.opened? <;> simp [hopened]

theorem marks_close (builder : Builder) : marks builder.close.nodes = marks builder.nodes := by
  unfold close
  generalize builder.opened = opened
  induction opened generalizing builder with
  | nil => rfl
  | cons pos outer ih => rw [List.foldl_cons, ih, marks_leave]

end Builder

/-- The table of a built tree: the root, and then the nodes in the order in which they were begun. -/
theorem Tree.marks_ofSteps (filePath source : String) (steps : List Step) :
    Builder.marks (Tree.ofSteps filePath source steps).nodes =
      (⟨0, source.utf8ByteSize⟩, 1) ::
        (steps.filterMap Step.opened?).map
          fun span => (span, (LineIndex.ofText source).lineOf span.start) := by
  have hmarks := (steps.foldl Builder.run (Builder.start source)).marks_close
  rw [Builder.marks_foldl_run] at hmarks
  exact hmarks

/-- Lines of a text whose offsets and lines fit into 32 bits. The line of any offset, past the end as well, is
one more than the newlines before it. In a built tree the root stands on line one, and every node that was
begun, in this order and whether or not it was contracted, on the line of the offset at which it starts. -/
theorem lines_count_newlines (source : String) (hfit : source.utf8ByteSize < UInt32.size - 1) :
    (∀ offset, ((LineIndex.ofText source).lineOf offset).toNat = 1 + newlinesBefore source offset) ∧
    ∀ filePath steps,
      (Tree.ofSteps filePath source steps).nodes.toList.map
          (fun node => (node.span, node.line.toNat)) =
        (⟨0, source.utf8ByteSize⟩ :: steps.filterMap Step.opened?).map
          fun span => (span, 1 + newlinesBefore source span.start) := by
  have hline := LineIndex.toNat_lineOf hfit
  refine ⟨hline, ?_⟩
  intro filePath steps
  have hmarks := congrArg (List.map fun mark : Span × UInt32 => (mark.1, mark.2.toNat))
    (Tree.marks_ofSteps filePath source steps)
  have hroot : newlinesBefore source 0 = 0 := by simp [newlinesBefore]
  simpa [Builder.marks, Function.comp_def, hline, hroot] using hmarks

theorem lines_count_newlines_after_empty_line :
    "a\nbc\n\nd".utf8ByteSize < UInt32.size - 1 ∧
    ((LineIndex.ofText "a\nbc\n\nd").lineOf 5).toNat = 3 ∧
    ((LineIndex.ofText "a\nbc\n\nd").lineOf 100).toNat = 4 ∧
    (Tree.ofSteps "a.ts" "a\nbc\n\nd"
        [.enter .other ⟨6, 7⟩, .leaf .identifier ⟨6, 7⟩, .leave]).nodes.toList.map
          (fun node => (node.span, node.line.toNat)) =
      [(⟨0, 7⟩, 1), (⟨6, 7⟩, 4), (⟨6, 7⟩, 4)] := by
  have hfit : "a\nbc\n\nd".utf8ByteSize < UInt32.size - 1 := by decide
  obtain ⟨hline, hlines⟩ := lines_count_newlines _ hfit
  refine ⟨hfit, ?_, ?_, ?_⟩
  · rw [hline]
    decide
  · rw [hline]
    decide
  · rw [hlines]
    decide

end ActionAtlas.Syntax
