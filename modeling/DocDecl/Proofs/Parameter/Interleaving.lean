import DocDecl.Proofs.Comment.SingleTag
import DocDecl.Proofs.Parameter.Line

/-!
# The order of blocks for different fields

A field is given by the blocks of its own name, and its parts by the blocks with dotted names under
it. Only the order among these makes a difference: a block for a part may stand anywhere, also in
front of the block of its field, and one for a field that is not documented is as good as absent.
The order of the fields is that of the undotted blocks alone.

## Main definitions

* `ownBlocks`, `partBlocks` : the blocks that give fields, and those that give parts of one.
* `IsPerOwner` : fields that depend on no other order of their blocks.
* `TagBlock`, `blockComment` : comments made of the blocks of one tag.
* `WrittenField` : a field as it is written in one line.

## Main results

* `documentedFields_congr` : equal blocks for each field give equal fields.
* `tagBlocks_blockComment`, `documentedFields_blockComment` : comments made of blocks.
* `map_name_written` : the names that come out of written fields.
* `isPerOwner_parameters_properties` : parameters and properties.
* `parameters_of_part_in_front` : a part in front of its field.
-/

namespace DocDecl

variable {comment comment' tag block n : Text} {f : Field}

/-! ### The blocks for a field -/

instance (n : Text) (f : Field) : Decidable (f.IsAbout n) :=
  inferInstanceAs (Decidable (_ = _))

/-- Whether a block gives a field with a given property. -/
def blockGives (p : Field → Bool) (block : Text) : Bool := (Field.ofBlock? block).any p

/-- Whether a block gives a field, and not a part of one. -/
def isOwnBlock : Text → Bool := blockGives fun f => '.' ∉ f.name

/-- Whether a block gives a part of the field of a given name. -/
def isPartBlock (n : Text) : Text → Bool := blockGives fun f => '.' ∈ f.name ∧ f.IsAbout n

theorem isPartBlock_of_undotted (h : (Field.ofBlock? block).all (fun f => '.' ∉ f.name) = true)
    (n : Text) : isPartBlock n block = false := by
  rw [isPartBlock, blockGives]
  cases hf : Field.ofBlock? block with
  | none => rfl
  | some f =>
    have hdot : '.' ∉ f.name := by simpa [hf] using h
    simp [hdot]

/-- The blocks of a tag with undotted names, in order. -/
def ownBlocks (comment tag : Text) : List Text := (tagBlocks comment tag).filter isOwnBlock

/-- The blocks of a tag with dotted names under a given one, in order. -/
def partBlocks (comment tag n : Text) : List Text :=
  (tagBlocks comment tag).filter (isPartBlock n)

theorem filter_blockFields (p : Field → Bool) (comment tag : Text) :
    (blockFields comment tag).filter p =
      ((tagBlocks comment tag).filter (blockGives p)).filterMap Field.ofBlock? := by
  rw [blockFields, List.filter_filterMap, List.filterMap_filter]
  refine List.filterMap_congr fun b _ => ?_
  rw [blockGives]
  cases Field.ofBlock? b with
  | none => rfl
  | some f => rfl

/-- The fields that the blocks with undotted names give. -/
theorem filter_undotted (comment tag : Text) :
    (blockFields comment tag).filter (fun f => '.' ∉ f.name) =
      (ownBlocks comment tag).filterMap Field.ofBlock? :=
  filter_blockFields _ comment tag

/-- The parts of one field are those that its blocks give. -/
theorem filter_dotted (comment tag n : Text) :
    ((blockFields comment tag).filter fun f => '.' ∈ f.name).filter (fun f => f.IsAbout n) =
      (partBlocks comment tag n).filterMap Field.ofBlock? := by
  rw [List.filter_filter, partBlocks, isPartBlock, ← filter_blockFields]
  exact List.filter_congr fun f _ => by rw [Bool.decide_and, Bool.and_comm]

/-- Only its own parts change a field. -/
theorem withParts_filter (parts : List Field) (f : Field) :
    withParts (parts.filter fun p => p.IsAbout f.name) f = withParts parts f := by
  rw [withParts_eq, withParts_eq, List.filterMap_filter]
  refine congrArg (withPaths f) (List.filterMap_congr fun p _ => ?_)
  by_cases h : p.IsAbout f.name
  · simp [h]
  · simp [h, Field.pathBelow?_eq_none h]

/-- The names are those of the blocks with undotted names, each where it occurs first. -/
theorem map_name_eq_eraseDups (comment tag : Text) :
    (documentedFields comment tag).map Field.name =
      (((ownBlocks comment tag).filterMap Field.ofBlock?).map Field.name).eraseDups := by
  rw [map_name_documentedFields, filter_undotted]

/-! ### Other orders -/

/-- The fields are equal where the blocks for each of them are, whatever stands between these. -/
theorem documentedFields_congr (hown : ownBlocks comment tag = ownBlocks comment' tag)
    (hparts : ∀ n ∈ (documentedFields comment tag).map Field.name,
      partBlocks comment tag n = partBlocks comment' tag n) :
    documentedFields comment tag = documentedFields comment' tag := by
  rw [map_name_eq_eraseDups] at hparts
  rw [documentedFields_eq, documentedFields_eq, filter_undotted, filter_undotted, ← hown]
  refine List.map_congr_left fun f hf => ?_
  have hname : f.name ∈ (((ownBlocks comment tag).filterMap Field.ofBlock?).map
      Field.name).eraseDups := by
    rw [← map_name_putFields]
    exact List.mem_map_of_mem hf
  rw [← withParts_filter, filter_dotted, hparts _ hname, ← filter_dotted, withParts_filter]

/-- A block for a part of a field that is not documented has no effect. -/
theorem documentedFields_of_orphan {before after : List Text}
    (hblocks : tagBlocks comment tag = before ++ block :: after)
    (hblocks' : tagBlocks comment' tag = before ++ after) (hf : Field.ofBlock? block = some f)
    (hdot : '.' ∈ f.name) (hroot : f.IsAbout n)
    (hn : n ∉ (documentedFields comment tag).map Field.name) :
    documentedFields comment tag = documentedFields comment' tag := by
  have hskip {p : Field → Bool} (hp : p f = false) :
      (tagBlocks comment tag).filter (blockGives p) =
        (tagBlocks comment' tag).filter (blockGives p) := by
    have hblock : ¬blockGives p block = true := by simp [blockGives, hf, hp]
    rw [hblocks, hblocks', List.filter_append, List.filter_append, List.filter_cons_of_neg hblock]
  refine documentedFields_congr (hskip (by simp [hdot])) fun m hm => hskip ?_
  have hne : ¬f.IsAbout m := by
    rintro hm'
    obtain rfl := Option.some.inj (hroot.symm.trans hm')
    exact hn hm
  simp [hne]

/-! ### Comments made of blocks -/

/-- A line of a block without its margin. -/
structure IsBlockLine (line : Text) : Prop where
  /-- It has no blanks around it. -/
  trim_eq : Text.trim line = line
  /-- It is not empty. -/
  ne_nil : line ≠ []
  /-- It is one line. -/
  oneLine : '\n' ∉ line
  /-- The comment does not end in it. -/
  not_close : ¬"*/".toList <:+: line

/-- A block of a tag as it is written. -/
structure TagBlock (tag : Text) where
  /-- The line of the tag. -/
  first : Text
  /-- The lines behind it. -/
  others : List Text
  isBlockLine : ∀ l ∈ first :: others, IsBlockLine l
  opens : (Tag.afterAt? [tag] first).isSome = true
  not_tag : ∀ l ∈ others, l.head? ≠ some '@'

/-- The lines of a block. -/
def TagBlock.lines (b : TagBlock tag) : List Text := b.first :: b.others

/-- The text of a block, as it is read. -/
def TagBlock.text (b : TagBlock tag) : Text := Text.join "\n * " b.lines

/-- The comment that is made of given blocks. -/
def blockComment (bs : List (TagBlock tag)) : Text :=
  Text.unlines ("/**" :: ((bs.flatMap TagBlock.lines).map (" * ".toList ++ ·) ++ [" */".toList]))

theorem TagBlock.head?_first (b : TagBlock tag) : b.first.head? = some '@' := by
  by_contra h
  exact absurd b.opens (by simp [afterAt?_of_head? h])

/-- No line of other blocks goes on behind a block. -/
theorem continuation_eq_nil (bs : List (TagBlock tag)) :
    ((bs.flatMap TagBlock.lines ++ [[]]).takeWhile fun l : Text => l.head? ≠ some '@').filter
      (fun l : Text => !l.isEmpty) = [] := by
  cases bs with
  | nil => rfl
  | cons b bs => simp [TagBlock.lines, b.head?_first]

/-- The blocks that the lines of several blocks make up. -/
theorem blocksOfLines_flatMap (bs : List (TagBlock tag)) :
    blocksOfLines tag (bs.flatMap TagBlock.lines ++ [[]]) = bs.map TagBlock.lines := by
  induction bs with
  | nil => rfl
  | cons b bs ih =>
    have hlines : (b :: bs).flatMap TagBlock.lines ++ [[]] =
        b.first :: (b.others ++ (bs.flatMap TagBlock.lines ++ [[]])) := by
      simp [TagBlock.lines]
    have hothers : b.others.filter (fun l : Text => !l.isEmpty) = b.others :=
      List.filter_eq_self.2 fun l hl => by
        simp [(b.isBlockLine l (List.mem_cons_of_mem _ hl)).ne_nil]
    rw [hlines, blocksOfLines, if_pos b.opens,
      blocksOfLines_append fun l hl => afterAt?_of_head? (b.not_tag l hl), ih,
      List.takeWhile_append_of_pos fun l hl => decide_eq_true (b.not_tag l hl),
      List.filter_append, hothers, continuation_eq_nil, List.append_nil, List.map_cons]
    rfl

/-- The blocks of such a comment are the given ones, so blocks may be written in any order. -/
theorem tagBlocks_blockComment (bs : List (TagBlock tag)) :
    tagBlocks (blockComment bs) tag = bs.map TagBlock.text := by
  have hline : ∀ l ∈ bs.flatMap TagBlock.lines, IsBlockLine l := by
    intro l hl
    obtain ⟨b, -, hb⟩ := List.mem_flatMap.1 hl
    exact b.isBlockLine l hb
  have hfeed : ∀ l ∈ (bs.flatMap TagBlock.lines).map (" * ".toList ++ ·), '\n' ∉ l := by
    intro l hl
    obtain ⟨m, hm, rfl⟩ := List.mem_map.1 hl
    simp [(hline m hm).oneLine]
  have hbodies : ((bs.flatMap TagBlock.lines).map (" * ".toList ++ ·)).map lineBody =
      bs.flatMap TagBlock.lines := by
    rw [List.map_map]
    refine List.map_congr_left (fun l hl => ?_) |>.trans (List.map_id _)
    exact (lineBody_line (hline l hl).not_close).trans (hline l hl).trim_eq
  have hframe : lineBody "/**" = [] ∧ lineBody " */" = [] := by decide
  have hnone : (Tag.afterAt? [tag] []).isSome = false := afterAt?_of_head? (by simp)
  rw [tagBlocks, blockComment, Text.lines_unlines (List.cons_ne_nil _ _), Text.flatMap_lines,
    List.map_cons, List.map_append, hbodies, hframe.1, List.map_singleton, hframe.2,
    blocksOfLines, hnone, if_neg Bool.false_ne_true, blocksOfLines_flatMap, List.map_map]
  · rfl
  · rw [List.forall_mem_cons, List.forall_mem_append, List.forall_mem_singleton]
    exact ⟨by decide, hfeed, by decide⟩

/-- Comments made of the same blocks for each field have the same fields, in whatever order blocks
for different fields are written. -/
theorem documentedFields_blockComment {bs bs' : List (TagBlock tag)}
    (hown : (bs.map TagBlock.text).filter isOwnBlock = (bs'.map TagBlock.text).filter isOwnBlock)
    (hparts : ∀ n, (bs.map TagBlock.text).filter (isPartBlock n) =
      (bs'.map TagBlock.text).filter (isPartBlock n)) :
    documentedFields (blockComment bs) tag = documentedFields (blockComment bs') tag := by
  refine documentedFields_congr ?_ fun n _ => ?_
  · rw [ownBlocks, ownBlocks, tagBlocks_blockComment, tagBlocks_blockComment, hown]
  · rw [partBlocks, partBlocks, tagBlocks_blockComment, tagBlocks_blockComment, hparts]

/-! ### Written fields -/

/-- A field as it is written in one line: a type in braces and a name behind the tag. Dots may stand
in front of both. -/
structure WrittenField (tag : Text) where
  /-- The type. -/
  type : Text
  /-- The name, dotted where it is that of a part. -/
  name : Text
  isBody : GroupBody type
  trim_type : Text.trim type = type
  type_ne_nil : type ≠ []
  name_ne_nil : name ≠ []
  isPath : ∀ c ∈ name, ParamParts.isPathChar c = true
  isBlockLine : IsBlockLine (taggedLine tag type name)

namespace WrittenField

/-- The name that is declared: the written one without the dots that make it take all remaining
arguments. -/
def bareName (w : WrittenField tag) : Text := (Text.after? "..." w.name).getD w.name

/-- The block of a written field. -/
def toBlock (w : WrittenField tag) : TagBlock tag where
  first := taggedLine tag w.type w.name
  others := []
  isBlockLine := List.forall_mem_singleton.2 w.isBlockLine
  opens := Option.isSome_iff_exists.2 ⟨_, Tag.afterAt?_singleton.2 ⟨rfl, rfl⟩⟩
  not_tag := List.forall_mem_nil _

/-- A written field is read under the name that is written. -/
theorem map_name_ofBlock? (htag : '{' ∉ tag) (w : WrittenField tag) :
    (Field.ofBlock? w.toBlock.text).map Field.name = some w.bareName := by
  have hline : w.toBlock.text = taggedLine tag w.type w.name := List.append_nil _
  rw [hline, Field.ofBlock?_taggedLine htag w.isBody w.trim_type w.type_ne_nil w.name_ne_nil
    w.isPath]
  rfl

end WrittenField

/-- The names that come out of written fields are the undotted ones, each where it is written
first. -/
theorem map_name_written (htag : '{' ∉ tag) (ws : List (WrittenField tag)) :
    (documentedFields (blockComment (ws.map WrittenField.toBlock)) tag).map Field.name =
      ((ws.map WrittenField.bareName).filter fun n => '.' ∉ n).eraseDups := by
  have hnames : ((ws.map fun w => w.toBlock.text).filterMap Field.ofBlock?).map Field.name =
      ws.map WrittenField.bareName := by
    induction ws with
    | nil => rfl
    | cons w ws ih =>
      obtain ⟨f, hf, hname⟩ := Option.map_eq_some_iff.1 (w.map_name_ofBlock? htag)
      rw [List.map_cons, List.filterMap_cons_some hf, List.map_cons, List.map_cons, ih, hname]
  rw [map_name_documentedFields, blockFields, tagBlocks_blockComment, List.map_map]
  refine congrArg List.eraseDups ?_
  rw [← hnames, List.filter_map]
  rfl

/-! ### Parameters and properties -/

/-- The fields of a tag depend on the order of the blocks for each field, and on no other order. -/
structure IsPerOwner (tag : Text) (fields : Text → List Field) : Prop where
  /-- How the blocks for different fields follow one another makes no difference. -/
  eq_of_blocks (comment comment' : Text) :
    ownBlocks comment tag = ownBlocks comment' tag →
    (∀ n, partBlocks comment tag n = partBlocks comment' tag n) →
    fields comment = fields comment'
  /-- No name is repeated. -/
  nodup_name (comment : Text) : ((fields comment).map Field.name).Nodup
  /-- The names are in the order in which they occur first. -/
  map_name (comment : Text) :
    (fields comment).map Field.name =
      (((ownBlocks comment tag).filterMap Field.ofBlock?).map Field.name).eraseDups
  /-- The blocks for different fields may be written in any order. -/
  eq_of_written (bs bs' : List (TagBlock tag)) :
    (bs.map TagBlock.text).filter isOwnBlock = (bs'.map TagBlock.text).filter isOwnBlock →
    (∀ n, (bs.map TagBlock.text).filter (isPartBlock n) =
      (bs'.map TagBlock.text).filter (isPartBlock n)) →
    fields (blockComment bs) = fields (blockComment bs')
  /-- Of the names that are written, the undotted ones come out, in the order in which they are
  written first. -/
  map_name_written (ws : List (WrittenField tag)) :
    (fields (blockComment (ws.map WrittenField.toBlock))).map Field.name =
      ((ws.map WrittenField.bareName).filter fun n => '.' ∉ n).eraseDups
  /-- A block for a part of a field that is not documented may be left out. -/
  eq_of_orphan (comment comment' : Text) (before after : List Text) (block n : Text) (f : Field) :
    tagBlocks comment tag = before ++ block :: after →
    tagBlocks comment' tag = before ++ after →
    Field.ofBlock? block = some f → '.' ∈ f.name → f.IsAbout n →
    n ∉ (fields comment).map Field.name →
    fields comment = fields comment'

theorem isPerOwner_documentedFields (htag : '{' ∉ tag) :
    IsPerOwner tag fun comment => documentedFields comment tag where
  eq_of_blocks _ _ hown hparts := documentedFields_congr hown fun n _ => hparts n
  nodup_name comment := nodup_name_documentedFields comment tag
  map_name comment := map_name_eq_eraseDups comment tag
  eq_of_written _ _ := documentedFields_blockComment
  map_name_written := map_name_written htag
  eq_of_orphan _ _ _ _ _ _ _ hblocks hblocks' hf hdot hroot hn :=
    documentedFields_of_orphan hblocks hblocks' hf hdot hroot hn

/-- Parameters and properties depend on no order of blocks for different fields. -/
theorem isPerOwner_parameters_properties :
    IsPerOwner "param" parameters ∧ IsPerOwner "property" properties :=
  ⟨isPerOwner_documentedFields (by decide), isPerOwner_documentedFields (by decide)⟩

/-- A part in front of its field, with another field between them. -/
theorem parameters_of_part_in_front :
    let front : Text :=
      "/**\n * @param \x7bA\x7d o.x\n * @param \x7bB\x7d p\n * @param \x7bC\x7d o\n */"
    let behind : Text :=
      "/**\n * @param \x7bB\x7d p\n * @param \x7bC\x7d o\n * @param \x7bA\x7d o.x\n */"
    parameters front = parameters behind ∧
      (parameters front).map Field.name = ["p".toList, "o".toList] := by
  intro front behind
  let part : Text := "@param \x7bA\x7d o.x"
  let other : Text := "@param \x7bB\x7d p"
  let own : Text := "@param \x7bC\x7d o"
  have hother := @isPartBlock_of_undotted other (by decide +kernel)
  have hown := @isPartBlock_of_undotted own (by decide +kernel)
  have hfront : tagBlocks front "param" = [part, other, own] := by decide +kernel
  have hbehind : tagBlocks behind "param" = [other, own, part] := by decide +kernel
  refine ⟨isPerOwner_parameters_properties.1.eq_of_blocks _ _ (by decide +kernel) fun n => ?_, ?_⟩
  · simp only [partBlocks, hfront, hbehind, List.filter_cons, hother n, hown n]
    rfl
  · rw [isPerOwner_parameters_properties.1.map_name]
    decide +kernel

end DocDecl
