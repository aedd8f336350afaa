import Diagnostics.Proofs.Sink.Wording

/-!
# What Order Changes and What It Does Not

The same messages may come to a recorder in any order. As long as the error
limit is not reached, all that the order decides is the order of the output:
every message is counted and printed as the level has it, and the summary comes
last.

With the limit reached the order decides more, since warnings that come after
the last of the errors are not printed any more. What it does not decide is how
many errors are printed, that these are the first ones, and what the last words
look like. `KeepsToLimit` says so without regard to where the limit fell. It
finds the errors that were printed by counting, and the notice by what it looks
like.

## Main definitions

* `Recorder.fresh`: A recorder that has printed nothing so far.
* `Recorder.KeepsToLimit`: What a run under an error limit has kept and written.

## Theorems

* `IsShortest.countP_eq`: The shortest start has exactly so many errors.
* `Recorder.rendered_perm`, `Recorder.closingWords_perm`: What comes of the same
  messages in another order.
* `Recorder.finish_fresh_of_below`: A run that stays below the limit.
* `Recorder.not_isLimitNotice_of_below`: It writes no notice.
* `Recorder.keepsToLimit`: A run under any limit.
-/

namespace Diagnostics

/-- The errors of a shortest start are no more than were looked for, since one
    message less would do otherwise. -/
theorem IsShortest.countP_eq {errors : Nat} {messages start : List Message}
    (h : IsShortest errors messages start) : start.countP Message.isError = errors := by
  refine Nat.le_antisymm ?_ h.enough
  rcases List.eq_nil_or_concat start with rfl | ⟨front, last, rfl⟩
  · exact Nat.zero_le errors
  · rw [List.concat_eq_append] at h ⊢
    refine Nat.le_of_not_lt fun hmore => ?_
    -- With more errors than were looked for, the start without its last message would do.
    have hone : [last].countP Message.isError ≤ 1 := List.countP_le_length
    have hfront : front <+: messages := (List.prefix_append front [last]).trans h.isPrefix
    rw [List.countP_append] at hmore
    have hshort := h.least front hfront (by omega)
    rw [List.length_append, List.length_singleton] at hshort
    omega

/-- A level leaves the errors as they are. -/
theorem filter_isError_filter_admits (level : Level) (messages : List Message) :
    (messages.filter (fun message => level.admits message.kind)).filter Message.isError =
      messages.filter Message.isError := by
  rw [List.filter_filter]
  refine List.filter_congr fun message _ => ?_
  cases herror : message.isError with
  | false => rfl
  | true =>
      have hkind : message.kind = .error := eq_of_beq herror
      rw [hkind, level.admits_error]
      rfl

theorem Counts.ofMessages_perm {ms ns : List Message} (h : ms.Perm ns) :
    ofMessages ms = ofMessages ns := by
  rw [ofMessages, ofMessages, h.countP_eq, h.countP_eq]

namespace Recorder

theorem rendered_perm (r : Recorder) {ms ns : List Message} (h : ms.Perm ns) :
    (r.rendered ms).Perm (r.rendered ns) :=
  (h.filter _).filterMap _

theorem closingWords_perm (policy : Policy) (options : Options) {ms ns : List Message}
    (h : ms.Perm ns) :
    closingWords policy options ms ms = closingWords policy options ns ns := by
  have hempty : ms ≠ [] ↔ ns ≠ [] := by
    rw [← List.length_pos_iff, ← List.length_pos_iff, h.length_eq]
  unfold closingWords
  rw [h.countP_eq, Counts.ofMessages_perm h]
  simp only [hempty]

/-- A recorder for people that has printed nothing so far. -/
def fresh (options : Options) (terminal : Terminal) (journal : List Entry) : Recorder :=
  { policy := .interactive, options, terminal, journal }

/-- What a run under an error limit has kept and written, for so many errors in
    all: the texts of some messages, and the last words. -/
structure KeepsToLimit (options : Options) (terminal : Terminal) (errors : Nat) (r : Recorder)
    (written : List Message) (texts closing : List String) : Prop where
  chunks : r.outlet.chunks = texts ++ closing
  sublist : written.Sublist r.kept
  rendered : written.map (fun message => message.render? terminal options) = texts.map some
  /-- So many errors were written. -/
  number : written.countP Message.isError = min errors options.errorLimit
  /-- And they are the first of all. -/
  first : written.filter Message.isError =
    (r.kept.filter Message.isError).take (min errors options.errorLimit)
  /-- Nothing before the last words looks like any. -/
  before : ∀ text ∈ texts, ¬ IsLimitNotice text ∧ ¬ IsSummary text
  reached : options.errorLimit ≤ errors →
    ∃ notice, closing = [notice] ∧ IsLimitNotice notice ∧ ¬ IsSummary notice
  unreached : errors < options.errorLimit → ∀ text ∈ closing, ¬ IsLimitNotice text

variable {options : Options} {terminal : Terminal} {journal : List Entry}
  {messages start : List Message}

theorem hitsLimit_interactive_iff (errors : Nat) :
    HitsLimit .interactive options errors ↔
      0 < options.errorLimit ∧ options.errorLimit ≤ errors :=
  ⟨And.right, fun h => ⟨rfl, h⟩⟩

/-- A limit is not reached if there is none, or with fewer errors. -/
theorem not_hitsLimit_of_below {policy : Policy} {errors : Nat}
    (h : options.errorLimit = 0 ∨ errors < options.errorLimit) :
    ¬ HitsLimit policy options errors := by
  intro ⟨_, hpos, hreached⟩
  omega

/-- Below the limit everything is counted, and printed as the level has it. What
    follows is told by the messages in any order. -/
theorem finish_fresh_of_below {all : List Message} (hall : messages.Perm all)
    (hrenders : ∀ message ∈ messages, (fresh options terminal journal).Renders message)
    (hbelow : options.errorLimit = 0 ∨ all.countP Message.isError < options.errorLimit) :
    let finished := ((fresh options terminal journal).recordAll messages).finish
    finished.outlet.chunks = (fresh options terminal journal).rendered messages ++
        closingWords .interactive options all all ∧
      finished.counts = Counts.ofMessages all := by
  intro finished
  have hopen : (fresh options terminal journal).isSilent = false := rfl
  have hlimit : ¬ HitsLimit (fresh options terminal journal).policy
      (fresh options terminal journal).options (messages.countP Message.isError) := by
    rw [hall.countP_eq]
    exact not_hitsLimit_of_below hbelow
  rcases finish_of_below hopen rfl hrenders hlimit with ⟨hrun, -⟩
  refine ⟨?_, ?_⟩
  · rw [← closingWords_perm .interactive options hall]
    exact hrun.chunks rfl
  · rw [hrun.counts, ← Counts.ofMessages_perm hall]
    exact Counts.addAll_empty messages

/-- Messages that can all be rendered have a text each. -/
theorem map_render?_eq {r : Recorder} (h : ∀ message ∈ messages, r.Renders message) :
    (messages.filter (fun message => r.options.level.admits message.kind)).map
        (fun message => message.render? r.terminal r.options) =
      (r.rendered messages).map some := by
  rw [rendered, List.map_filterMap_some_eq_filter_map_isSome, eq_comm, List.filter_eq_self]
  -- It is left to see that none of the texts is missing.
  intro text hmem
  rcases List.mem_map.mp hmem with ⟨message, hadmitted, rfl⟩
  rcases List.mem_filter.mp hadmitted with ⟨hmessage, hadmits⟩
  exact h message hmessage hadmits

theorem not_closing_of_mem_rendered {r : Recorder} {text : String}
    (h : text ∈ r.rendered messages) : ¬ IsLimitNotice text ∧ ¬ IsSummary text := by
  rcases List.mem_filterMap.mp h with ⟨message, -, htext⟩
  exact Message.not_closing_of_render? htext

/-- Below the limit nothing that is written looks like a notice: it is a message,
    or closing words that are a summary. -/
theorem not_isLimitNotice_of_below
    (hrenders : ∀ message ∈ messages, (fresh options terminal journal).Renders message)
    (hbelow : options.errorLimit = 0 ∨ messages.countP Message.isError < options.errorLimit) :
    let finished := ((fresh options terminal journal).recordAll messages).finish
    finished.limitReached = false ∧ ∀ text ∈ finished.outlet.chunks, ¬ IsLimitNotice text := by
  intro finished
  have hlimit : ¬ HitsLimit .interactive options (messages.countP Message.isError) :=
    not_hitsLimit_of_below hbelow
  rcases finish_fresh_of_below (List.Perm.refl messages) hrenders hbelow with ⟨hchunks, -⟩
  refine ⟨(finish_of_below (r := fresh options terminal journal) rfl rfl hrenders hlimit).2, ?_⟩
  intro text hmem hnotice
  rw [hchunks] at hmem
  -- What was written is a message, or else closing words.
  rcases List.mem_append.mp hmem with hmessage | hclosing
  · exact (not_closing_of_mem_rendered hmessage).1 hnotice
  · exact not_isSummary_of_isLimitNotice hnotice (isSummary_of_mem_closingWords hlimit hclosing)

/-- A run that has written a start of its messages and then its last words has
    kept to the limit, if the start has the right number of errors. -/
theorem keepsToLimit_of_start {r : Recorder} (hpos : 0 < options.errorLimit)
    (hrenders : ∀ message ∈ messages, (fresh options terminal journal).Renders message)
    (hkept : r.kept = messages) (hstart : start <+: messages)
    (hcount : start.countP Message.isError =
      min (messages.countP Message.isError) options.errorLimit)
    (hchunks : r.outlet.chunks = (fresh options terminal journal).rendered start ++
      closingWords .interactive options messages start) :
    r.KeepsToLimit options terminal (messages.countP Message.isError)
      (start.filter (fun message => options.level.admits message.kind))
      ((fresh options terminal journal).rendered start)
      (closingWords .interactive options messages start) := by
  -- The errors of a start are a start of the errors, and how many there are tells which.
  have hfirst : start.filter Message.isError =
      (messages.filter Message.isError).take
        (min (messages.countP Message.isError) options.errorLimit) := by
    have hprefix := List.prefix_iff_eq_take.mp (hstart.filter Message.isError)
    rwa [← List.countP_eq_length_filter, hcount] at hprefix
  exact {
    chunks := hchunks
    sublist := by
      rw [hkept]
      exact List.filter_sublist.trans hstart.sublist
    rendered := map_render?_eq fun message hmem => hrenders message (hstart.subset hmem)
    number := by
      rw [List.countP_eq_length_filter, filter_isError_filter_admits,
        ← List.countP_eq_length_filter, hcount]
    first := by
      rw [hkept, filter_isError_filter_admits, hfirst]
    before := fun text hmem => not_closing_of_mem_rendered hmem
    reached := by
      intro hreached
      rcases closingWords_of_hitsLimit ((hitsLimit_interactive_iff _).mpr ⟨hpos, hreached⟩) with
        ⟨notice, hclosing, hnotice⟩
      exact ⟨notice, hclosing, hnotice, not_isSummary_of_isLimitNotice hnotice⟩
    unreached := by
      intro hfewer text hmem hnotice
      have hbelow : ¬ HitsLimit .interactive options (messages.countP Message.isError) :=
        fun hlimit => Nat.not_le_of_lt hfewer hlimit.2.2
      exact not_isSummary_of_isLimitNotice hnotice (isSummary_of_mem_closingWords hbelow hmem) }

/-- A run under any error limit keeps to it. -/
theorem keepsToLimit (hpos : 0 < options.errorLimit)
    (hrenders : ∀ message ∈ messages, (fresh options terminal journal).Renders message) :
    ∃ written texts closing,
      ((fresh options terminal journal).recordAll messages).finish.KeepsToLimit options terminal
        (messages.countP Message.isError) written texts closing := by
  have hopen : (fresh options terminal journal).isSilent = false := rfl
  by_cases hreached : options.errorLimit ≤ messages.countP Message.isError
  · -- The run is cut at the error that reaches the limit.
    have hlimit := (hitsLimit_interactive_iff _).mpr ⟨hpos, hreached⟩
    rcases finish_of_hitsLimit hopen rfl hrenders hlimit with ⟨start, hshortest, hrun, -⟩
    refine ⟨_, _, _, keepsToLimit_of_start hpos hrenders hrun.kept hshortest.isPrefix ?_
      (hrun.chunks rfl)⟩
    rw [hshortest.countP_eq]
    exact (Nat.min_eq_right hreached).symm
  · -- The run is not cut, and all errors are the first.
    have hlimit : ¬ HitsLimit (fresh options terminal journal).policy
        (fresh options terminal journal).options (messages.countP Message.isError) :=
      fun h => hreached h.2.2
    rcases finish_of_below hopen rfl hrenders hlimit with ⟨hrun, -⟩
    refine ⟨_, _, _, keepsToLimit_of_start hpos hrenders hrun.kept (List.prefix_refl messages) ?_
      (hrun.chunks rfl)⟩
    exact (Nat.min_eq_left (Nat.le_of_not_le hreached)).symm

end Recorder

end Diagnostics
