import Diagnostics.Proofs.Color.Messages
import Mathlib.Data.List.Forall2

/-!
# How Messages Look

What a terminal makes of an escape depends on all escapes before it. Bold that
was turned on for a path is still on when the colour of the label comes, and is
meant to be; the same bold must be off again for the source line. So the look
of a message is not a matter of its own escapes alone, unless every message
leaves the terminal as it found it.

`Styled.shown` carries the attributes through a styled text piece by piece, and
`displayFrom_chars` says that a terminal that reads the characters one by one
does the same, whatever it reads next, as long as the texts hold no escape
character. `LooksLike` has no escapes in it at all: it says part by part what
each part of a message is to look like. That all three shapes come out so, and
end with nothing in force, is then a calculation over a few pieces.

Since every message starts and ends with nothing in force, what is shown of
many is what is shown of each, one after the other.

## Main definitions

* `Attributes.after`: The attributes in force after a style.
* `Styled.shown`: What is shown of a styled text, and what is left in force.
* `Message.LooksLike`: How a message is meant to look.
* `Rendering`: A message with the terminal and the options it is rendered for.

## Theorems

* `displayFrom_append`: Clean text is shown as it is, in one look.
* `Styled.displayFrom_chars`: A terminal shows a styled text piece by piece.
* `Message.exists_look`: The three shapes look as they are meant to.
* `Rendering.display_texts`: So do messages one after the other.
-/

namespace Diagnostics

/-- The attributes in force after a style. -/
def Attributes.after (attributes : Attributes) : Style → Attributes
  | .reset => {}
  | .red => { attributes with color := some .red }
  | .green => { attributes with color := some .green }
  | .magenta => { attributes with color := some .magenta }
  | .bold => { attributes with bold := true }
  | .resetBold => { bold := true }

theorem plainly_append (attributes : Attributes) (a b : List Char) :
    plainly attributes (a ++ b) = plainly attributes a ++ plainly attributes b :=
  List.map_append

/-- Clean text is shown as it is, whatever stands behind it, and changes
    nothing of what is in force. -/
theorem displayFrom_append {cs : List Char} (h : escapeChar ∉ cs) (attributes : Attributes)
    (rest : List Char) :
    displayFrom 0 attributes (cs ++ rest) =
      (plainly attributes cs ++ (displayFrom 0 attributes rest).1,
        (displayFrom 0 attributes rest).2) := by
  induction cs with
  | nil => rfl
  | cons c cs ih =>
      rw [List.mem_cons, not_or] at h
      -- No order starts at the first character, so it is shown and the rest follows.
      have hc : ¬ c = escapeChar := fun hc => h.1 hc.symm
      rw [List.cons_append, displayFrom, if_neg hc]
      simp only [ih h.2]
      rfl

/-- A style is obeyed as a whole, and nothing is shown for it. -/
theorem displayFrom_code (escape : Style) (attributes : Attributes) (rest : List Char) :
    displayFrom 0 attributes (escape.code.toList ++ rest) =
      displayFrom 0 (attributes.after escape) rest := by
  cases escape <;> rfl

namespace Styled

/-- What is shown of a styled text that finds certain attributes in force, and
    what it leaves in force. -/
def shown : Attributes → Styled → List (Char × Attributes) × Attributes
  | attributes, [] => ([], attributes)
  | attributes, .text cs :: rest =>
    let others := shown attributes rest
    (plainly attributes cs ++ others.1, others.2)
  | attributes, .style escape :: rest => shown (attributes.after escape) rest

/-- A terminal that reads coloured output shows it piece by piece, and goes on
    with what the last piece has left in force. -/
theorem displayFrom_chars {styled : Styled} (h : styled.IsClean) (attributes : Attributes)
    (rest : List Char) :
    displayFrom 0 attributes (styled.chars true ++ rest) =
      ((styled.shown attributes).1 ++ (displayFrom 0 (styled.shown attributes).2 rest).1,
        (displayFrom 0 (styled.shown attributes).2 rest).2) := by
  -- For any attributes, since each style hands on those that it leaves.
  induction styled generalizing attributes with
  | nil => rfl
  | cons piece styled ih =>
      rw [chars_cons, List.append_assoc]
      cases piece with
      | text cs =>
          rw [isClean_text_cons] at h
          rw [Piece.chars, displayFrom_append h.1, ih h.2, shown, List.append_assoc]
      | style escape =>
          rw [isClean_style_cons] at h
          rw [Piece.chars, if_pos rfl, displayFrom_code, ih h, shown]

end Styled

/-- The look of a kind's label: bold, and red or magenta. -/
def Kind.look : Kind → Attributes
  | .error => { bold := true, color := some .red }
  | .warning => { bold := true, color := some .magenta }

/-- The look of what is marked and of the marker: green, and not bold. -/
def markLook : Attributes := { color := some .green }

/-- The look of a path, a place and a message's own words: bold, without
    colour. -/
def wordsLook : Attributes := { bold := true }

namespace Message

/-- How a message's label and its words are meant to look. -/
def labelLook (message : Message) : List (Char × Attributes) :=
  plainly message.kind.look (message.kind.label.toList ++ [':', ' ']) ++
    plainly wordsLook message.text.toList

/-- How a message is meant to look, in each of its three shapes. -/
inductive LooksLike (message : Message) (withSnippet : Bool) (width : Nat) :
    List (Char × Attributes) → Prop
  /-- A label and words, and the end of the line. -/
  | unplaced (hsource : message.source = none) :
      LooksLike message withSnippet width (message.labelLook ++ plainly {} ['\n'])
  /-- The same behind a path. -/
  | placed {source : Source} (hsource : message.source = some source)
      (hsnippet : withSnippet = false) :
      LooksLike message withSnippet width
        (plainly wordsLook (source.displayPath.toList ++ [':', ' ']) ++ message.labelLook ++
          plainly {} ['\n'])
  /-- The same behind a path and a place, then the source line with the span
      marked, then the marker under it. -/
  | excerpt {source : Source} {e : Excerpt} (hsource : message.source = some source)
      (hsnippet : withSnippet = true)
      (he : Excerpt.ofSpan? source.chars message.span width = some e) :
      LooksLike message withSnippet width
        (plainly wordsLook (source.displayPath.toList ++ [':'] ++ (toString e.line).toList ++
            [':'] ++ (toString e.column).toList ++ [':', ' ']) ++
          message.labelLook ++ plainly wordsLook ['\n'] ++
          plainly {} e.shown.before ++ plainly markLook e.shown.marked ++
          plainly {} (e.shown.after ++ ['\n']) ++
          plainly markLook (e.shown.indent ++ e.shown.marker) ++ plainly {} ['\n'])

/-- The label's colour comes on top of the bold in front of it. -/
theorem after_kind (kind : Kind) : wordsLook.after kind.style = kind.look := by
  cases kind <;> rfl

/-- A label behind bold text ends in bold, with its colour off again. -/
theorem shown_label_append (message : Message) (rest : Styled) :
    (message.label ++ rest).shown wordsLook =
      (message.labelLook ++ (rest.shown wordsLook).1, (rest.shown wordsLook).2) := by
  simp only [label, List.cons_append, List.nil_append, Styled.shown, after_kind, labelLook,
    List.append_assoc]
  rfl

/-- Each shape of a message looks as it is meant to, and leaves nothing in
    force. -/
theorem exists_look {message : Message} {withSnippet : Bool} {width : Nat} {styled : Styled}
    (h : message.styled? withSnippet width = some styled) :
    ∃ look, message.LooksLike withSnippet width look ∧ styled.shown {} = (look, {}) := by
  have hbold : Attributes.after {} .bold = wordsLook := rfl
  rcases styled?_cases h with ⟨hsource, rfl⟩ | ⟨source, hsource, hsnippet, rfl⟩ |
    ⟨source, e, hsource, hsnippet, he, rfl⟩
  · refine ⟨_, .unplaced hsource, ?_⟩
    rw [headline, List.nil_append, Styled.shown, hbold, shown_label_append]
    rfl
  · -- The path is bold like the words, and has no colour to turn off.
    refine ⟨_, .placed hsource hsnippet, ?_⟩
    rw [headline, List.append_assoc, Styled.shown, hbold, placeOfPath, List.singleton_append,
      Styled.shown, shown_label_append, List.append_assoc]
    rfl
  · refine ⟨_, .excerpt hsource hsnippet he, ?_⟩
    -- The header's bold is turned off behind its line feed, before the line.
    have hgreen : Attributes.after {} .green = markLook := rfl
    have hreset (attributes : Attributes) : attributes.after .reset = {} := rfl
    simp only [snippet, placeOfExcerpt, List.append_assoc, List.cons_append, List.nil_append,
      Styled.shown, hbold, shown_label_append, hgreen, hreset, plainly_append, List.append_nil]

end Message

/-- A message with the terminal and the options that it is rendered for. -/
structure Rendering where
  message : Message
  terminal : Terminal
  options : Options

namespace Rendering

/-- What the terminal is sent, if the message can be rendered. -/
def text? (rendering : Rendering) : Option String :=
  rendering.message.render? rendering.terminal rendering.options

/-- How what is rendered is meant to look. -/
def LooksLike (rendering : Rendering) (look : List (Char × Attributes)) : Prop :=
  rendering.message.LooksLike rendering.options.snippet rendering.terminal.width look

/-- A text is shown in a certain look where nothing is in force, and leaves
    nothing in force for whatever comes behind it. -/
def ShownAs (text : String) (look : List (Char × Attributes)) : Prop :=
  ∀ rest, displayFrom 0 {} (text.toList ++ rest) =
    (look ++ (displayFrom 0 {} rest).1, (displayFrom 0 {} rest).2)

/-- A clean message that is rendered with colour is shown as it is meant to
    look. -/
theorem exists_shownAs {rendering : Rendering} {text : String}
    (hclean : rendering.message.IsClean) (hcolored : rendering.terminal.colored = true)
    (htext : rendering.text? = some text) :
    ∃ look, rendering.LooksLike look ∧ ShownAs text look := by
  rcases Option.map_eq_some_iff.mp htext with ⟨styled, hstyled, rfl⟩
  rcases Message.exists_look hstyled with ⟨look, hlook, hshown⟩
  refine ⟨look, hlook, fun rest => ?_⟩
  rw [Styled.write, String.toList_ofList, hcolored,
    Styled.displayFrom_chars (Message.isClean_of_styled? hclean hstyled), hshown]

/-- Texts that each leave nothing in force are shown one after the other as
    each is shown alone. -/
theorem display_flatMap {texts : List String} {looks : List (List (Char × Attributes))}
    (h : List.Forall₂ ShownAs texts looks) :
    display {} (texts.flatMap String.toList) = (looks.flatten, {}) := by
  unfold display
  induction h with
  | nil => rfl
  | cons hfirst _ ih => rw [List.flatMap_cons, hfirst, ih, List.flatten_cons]

theorem ShownAs.display_eq {text : String} {look : List (Char × Attributes)}
    (h : ShownAs text look) : display {} text.toList = (look, {}) := by
  have hall := display_flatMap (List.Forall₂.cons h .nil)
  rwa [List.flatMap_singleton, List.flatten_singleton] at hall

theorem exists_looks {renderings : List Rendering} {texts : List String}
    (hclean : ∀ rendering ∈ renderings, rendering.message.IsClean)
    (hcolored : ∀ rendering ∈ renderings, rendering.terminal.colored = true)
    (htexts : List.Forall₂ (fun rendering text => rendering.text? = some text) renderings texts) :
    ∃ looks, List.Forall₂ LooksLike renderings looks ∧ List.Forall₂ ShownAs texts looks := by
  induction htexts with
  | nil => exact ⟨[], .nil, .nil⟩
  | cons htext _ ih =>
      rw [List.forall_mem_cons] at hclean hcolored
      rcases exists_shownAs hclean.1 hcolored.1 htext with ⟨look, hlook, hshown⟩
      rcases ih hclean.2 hcolored.2 with ⟨looks, hlooks, hshowns⟩
      exact ⟨look :: looks, .cons hlook hlooks, .cons hshown hshowns⟩

/-- Clean messages that are rendered with colour, each for a terminal and with
    options of its own, and sent one after the other to a terminal on which
    nothing is in force. After any number of them nothing is in force again, and
    what is shown by then is what is shown of each alone, which is what each is
    meant to look like. -/
theorem display_texts {renderings : List Rendering} {texts : List String}
    (hclean : ∀ rendering ∈ renderings, rendering.message.IsClean)
    (hcolored : ∀ rendering ∈ renderings, rendering.terminal.colored = true)
    (htexts : List.Forall₂ (fun rendering text => rendering.text? = some text) renderings texts) :
    ∃ looks, List.Forall₂ LooksLike renderings looks ∧
      List.Forall₂ (fun text look => display {} text.toList = (look, {})) texts looks ∧
      ∀ n, display {} ((texts.take n).flatMap String.toList) = ((looks.take n).flatten, {}) := by
  rcases exists_looks hclean hcolored htexts with ⟨looks, hlooks, hshown⟩
  exact ⟨looks, hlooks, hshown.imp fun _ _ h => h.display_eq,
    fun n => display_flatMap (List.forall₂_take n hshown)⟩

/-- A warning and an error about a line that is too long for the terminal. -/
def cutLine : Source :=
  { index := 0, absolutePath := "/f", displayPath := "f", contents := "the quick brown\tfox" }

/-- A message of each shape. -/
def threeShapes : List Rendering :=
  let terminal : Terminal := { interactive := true, colored := true, width := 8 }
  [{ message := .unplaced .error "e", terminal, options := {} },
    { message := { source := some cutLine, span := ⟨4, 5⟩, text := "w", kind := .warning }
      terminal, options := {} },
    { message := { source := some cutLine, span := ⟨10, 5⟩, text := "x", kind := .error }
      terminal, options := { snippet := true } }]

/-- The texts of the three shapes, escapes and all. -/
def threeTexts : List String :=
  ["\x1b[1m\x1b[31merror: \x1b[0;1me\x1b[0m\n",
    "\x1b[1mf: \x1b[35mwarning: \x1b[0;1mw\x1b[0m\n",
    "\x1b[1mf:1:10: \x1b[31merror: \x1b[0;1mx\n" ++
      "\x1b[0m...\x1b[32mro\x1b[0m...\n\x1b[32m   ~~\x1b[0m\n"]

/-- Three shapes on one terminal, the last of them cut at both ends of its
    line. After the second nothing is in force, and the third is shown as it is
    meant to look. -/
theorem display_texts_threeShapes :
    (∀ rendering ∈ threeShapes, rendering.message.IsClean) ∧
      (∀ rendering ∈ threeShapes, rendering.terminal.colored = true) ∧
      List.Forall₂ (fun rendering text => rendering.text? = some text) threeShapes threeTexts ∧
      (display {} ((threeTexts.take 2).flatMap String.toList)).2 = {} ∧
      ∃ looks, List.Forall₂ LooksLike threeShapes looks ∧
        display {} (threeTexts.flatMap String.toList) = (looks.flatten, {}) := by
  have hsource : ∀ source, some cutLine = some source →
      escapeChar ∉ source.displayPath.toList ∧ escapeChar ∉ source.chars := by
    rintro source ⟨⟩
    decide
  have hclean : ∀ rendering ∈ threeShapes, rendering.message.IsClean := by
    -- The first shape has no source; the others share one.
    unfold threeShapes
    simp only [List.forall_mem_cons, List.not_mem_nil, false_imp_iff, implies_true, and_true]
    exact ⟨⟨by decide, fun _ hnone => (nomatch hnone), fun _ hnone => (nomatch hnone)⟩,
      ⟨by decide, fun source h => (hsource source h).1, fun source h => (hsource source h).2⟩,
      ⟨by decide, fun source h => (hsource source h).1, fun source h => (hsource source h).2⟩⟩
  have hcolored : ∀ rendering ∈ threeShapes, rendering.terminal.colored = true := by decide
  have htexts : List.Forall₂ (fun rendering text => rendering.text? = some text) threeShapes
      threeTexts := .cons (by decide) (.cons (by decide) (.cons (by decide) .nil))
  rcases display_texts hclean hcolored htexts with ⟨looks, hlooks, -, hshown⟩
  refine ⟨hclean, hcolored, htexts, ?_, looks, hlooks, ?_⟩
  · rw [hshown 2]
  · -- All three are the first three.
    have hall := hshown 3
    rwa [List.take_of_length_le (by decide), List.take_of_length_le
      (by rw [← hlooks.length_eq]; decide)] at hall

end Rendering

end Diagnostics
