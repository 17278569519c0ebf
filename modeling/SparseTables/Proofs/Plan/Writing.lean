import SparseTables.Plan.Render

/-
  This file takes the text of a plan apart into chunks: words
  of the language, identities of rows, and what a query
  gives.

  Main declarations:
    * `Chunk`
    * `Chunk.write`
    * `Plan.chunks`
    * `Plan.text_eq_write`
-/

namespace SparseTables

------------------------------------------------------------
-- Chunks
------------------------------------------------------------

/- A chunk of the text of a plan. -/
inductive Chunk where
  /- Words of the language. -/
  | word (text : String)
  /- The identity of a table or an attribute. -/
  | identity (id : Int)
  /- The alias of the items or of a join. -/
  | label (text : String)
  /- The alias of an output, between double quotes. -/
  | quoted (text : String)
  | operator (text : String)
  | parameter (name : String)
  | limit (count : Nat)
deriving DecidableEq

namespace Chunk

/- How a chunk is written. -/
def text : Chunk → String
  | word text => text
  | identity id => toString id
  | label text => text
  | quoted text => "\"" ++ text ++ "\""
  | operator text => Word.upper text
  | parameter name => name
  | limit count => toString count

/- Chunks are written one after another. -/
def write (chunks : List Chunk) : String :=
  String.join (chunks.map text)

/- Put a separator between the parts of a list. -/
def between
    (separator : String)
    (parts : List (List Chunk)) : List Chunk :=
  List.intercalate [word separator] parts

@[simp]
theorem write_nil : write [] = "" := by
  simp [write]

@[simp]
theorem write_cons (chunk : Chunk) (rest : List Chunk) :
    write (chunk :: rest) = chunk.text ++ write rest := by
  simp [write]

@[simp]
theorem write_append (first second : List Chunk) :
    write (first ++ second) = write first ++ write second := by
  simp [write]

theorem write_flatMap
    {α : Type}
    (parts : α → List Chunk)
    (rows : List α) :
    write (rows.flatMap parts) =
      String.join (rows.map fun row => write (parts row)) := by
  induction rows with
  | nil => simp
  | cons first rest ih => simp [ih]

theorem write_between
    (separator : String)
    (parts : List (List Chunk)) :
    write (between separator parts) =
      separator.intercalate (parts.map write) := by
  induction parts with
  | nil => simp [between]
  | cons first rest ih =>
      cases rest with
      | nil => simp [between]
      | cons second rest =>
          rw [between] at ih ⊢
          rw [List.intercalate_cons_cons, write_append,
            write_append, ih]
          simp only [List.map_cons,
            String.intercalate_cons_cons, write_cons,
            write_nil, text, String.append_empty]

/- What is written between separators. -/
theorem write_between_map
    {α : Type}
    {render : α → String}
    {chunks : α → List Chunk}
    (hRender : ∀ row, render row = write (chunks row))
    (separator : String)
    (rows : List α) :
    write (between separator (rows.map chunks)) =
      separator.intercalate (rows.map render) := by
  rw [write_between, List.map_map]
  exact congrArg _ (List.map_congr_left fun row _ =>
    (hRender row).symm)

theorem mem_between
    {separator : String}
    {parts : List (List Chunk)}
    {chunk : Chunk}
    (hMem : chunk ∈ between separator parts) :
    chunk = word separator ∨ ∃ part ∈ parts, chunk ∈ part := by
  induction parts with
  | nil => simp [between] at hMem
  | cons first rest ih =>
      cases rest with
      | nil => exact .inr ⟨first, by simp, by
          simpa [between] using hMem⟩
      | cons second rest =>
          rw [between, List.intercalate_cons_cons,
            List.mem_append, List.mem_append] at hMem
          rcases hMem with (hFirst | hWord) | hRest
          · exact .inr ⟨first, by simp, hFirst⟩
          · exact .inl (by simpa using hWord)
          · exact (ih hRest).imp_right
              fun ⟨part, hPart, hIn⟩ =>
                ⟨part, List.mem_cons_of_mem _ hPart, hIn⟩

end Chunk

------------------------------------------------------------
-- The chunks of a plan
------------------------------------------------------------

section Chunks

open Chunk

def Expr.chunks : Expr → List Chunk
  | null => [.word "NULL"]
  | countAll => [.word "COUNT(*)"]
  | item column =>
      [.label itemAlias, .word ".", .word column.name]
  | value alias_ column =>
      [.label alias_, .word ".", .word column.name]

def Join.chunks : Join → List Chunk
  | key =>
      [.word "JOIN bvalues AS ", .label keyAlias, .word " ON ",
        .label keyAlias, .word ".id = ", .label itemAlias,
        .word ".valueid"]
  | attr alias_ id =>
      [.word "LEFT OUTER JOIN item_values AS ", .label alias_,
        .word " ON ", .label alias_, .word ".itemid = ",
        .label itemAlias, .word ".id AND ", .label alias_,
        .word ".nameid = ", .identity id]
  | search alias_ source =>
      [.word "JOIN bvalues_fts AS ", .label alias_,
        .word " ON ", .label alias_, .word ".rowid = ",
        .label source, .word ".valueid"]

def Predicate.chunks : Predicate → List Chunk
  | never => [.word neverText]
  | compare left op param =>
      left.chunks ++
        [.word " ", .operator op, .word " ", .parameter param]
  | .matches alias_ param =>
      [.label alias_, .word ".bvalues_fts MATCH ",
        .parameter param]

namespace Filter

def tableChunks : Option Int → List Chunk
  | some id =>
      [.label itemAlias, .word ".tableid = ", .identity id]
  | none => [.word neverText]

def groupChunks
    (group : Combine × List Predicate) : List Chunk :=
  .word "(" ::
    between (" " ++ group.1.keyword ++ " ")
      (group.2.map Predicate.chunks) ++
    [.word ")"]

def chunks (filter : Filter) : List Chunk :=
  between "\nAND " (tableChunks filter.table ::
    filter.groups.map groupChunks)

end Filter

def OrderKey.chunks : OrderKey → List Chunk
  | output alias_ descending =>
      [.quoted alias_, .word " ",
        .word (if descending then "DESC" else "ASC")]
  | rank alias_ => [.label alias_, .word ".rank ASC"]

namespace Plan

def outputChunks (output : Expr × String) : List Chunk :=
  output.1.chunks ++ [.word " AS ", .quoted output.2]

def orderChunks : List OrderKey → List Chunk
  | [] => []
  | orders =>
      .word "\nORDER BY " ::
        between ", " (orders.map OrderKey.chunks)

def limitChunks : Option Nat → List Chunk
  | none => []
  | some count => [.word "\nLIMIT ", .limit count]

/- The chunks of the text of a plan. -/
def chunks (plan : Plan) : List Chunk :=
  .word "SELECT\n" ::
    between ",\n" (plan.outputs.map outputChunks) ++
    [.word "\nFROM items AS ", .label itemAlias] ++
    (plan.joins.flatMap fun join =>
      .word "\n" :: join.chunks) ++
    .word "\nWHERE " :: plan.filter.chunks ++
    orderChunks plan.orders ++
    limitChunks plan.limit

end Plan

------------------------------------------------------------
-- Chunks and texts
------------------------------------------------------------

theorem Expr.render_eq_write (expr : Expr) :
    expr.render = write expr.chunks := by
  cases expr with
  | null | countAll => simp [render, chunks, text]
  | item column =>
      simp [render, chunks, text, String.append_assoc]
  | value alias_ column =>
      simp [render, chunks, text, String.append_assoc]

theorem Join.render_eq_write (join : Join) :
    join.render = write join.chunks := by
  -- unfolded as a whole: equations for it take too long
  unfold render
  cases join <;>
    simp only [chunks, write_cons, write_nil, text,
      String.append_assoc, String.append_empty]

theorem Predicate.render_eq_write (predicate : Predicate) :
    predicate.render = write predicate.chunks := by
  cases predicate with
  | never => simp [render, chunks, text]
  | compare left op param =>
      simp [render, chunks, text, left.render_eq_write,
        String.append_assoc]
  | «matches» alias_ param =>
      simp [render, chunks, text, String.append_assoc]

namespace Filter

theorem renderTable_eq_write (table : Option Int) :
    renderTable table = write (tableChunks table) := by
  cases table <;>
    simp [renderTable, tableChunks, text, String.append_assoc]

theorem renderGroup_eq_write
    (group : Combine × List Predicate) :
    renderGroup group = write (groupChunks group) := by
  rw [groupChunks, write_append, write_cons,
    write_between_map Predicate.render_eq_write]
  simp [renderGroup, text]

theorem render_eq_write (filter : Filter) :
    filter.render = write filter.chunks := by
  rw [chunks, write_between, List.map_cons, List.map_map,
    render, renderTable_eq_write,
    List.map_congr_left fun group _ =>
      renderGroup_eq_write group]
  rfl

end Filter

theorem OrderKey.render_eq_write (key : OrderKey) :
    key.render = write key.chunks := by
  have hQuote : "\" " = "\"" ++ " " := rfl
  cases key with
  | output alias_ descending =>
      rw [render, hQuote]
      simp only [chunks, write_cons, write_nil, text,
        String.append_assoc, String.append_empty]
  | rank alias_ => simp [render, chunks, text]

namespace Plan

theorem renderOutput_eq_write (output : Expr × String) :
    renderOutput output = write (outputChunks output) := by
  have hQuote : " AS \"" = " AS " ++ "\"" := rfl
  rw [renderOutput, hQuote, Expr.render_eq_write]
  simp only [outputChunks, write_append, write_cons,
    write_nil, Chunk.text, String.append_assoc,
    String.append_empty]

theorem renderOrders_eq_write (orders : List OrderKey) :
    renderOrders orders = write (orderChunks orders) := by
  cases orders with
  | nil => rfl
  | cons first rest =>
      rw [orderChunks, write_cons,
        write_between_map OrderKey.render_eq_write]
      · rfl
      · exact List.cons_ne_nil _ _

theorem renderLimit_eq_write (limit : Option Nat) :
    renderLimit limit = write (limitChunks limit) := by
  cases limit <;> simp [renderLimit, limitChunks, Chunk.text]

/- The text of a plan is what its chunks are written as. -/
theorem text_eq_write (plan : Plan) :
    plan.text = write plan.chunks := by
  have hJoins : write (plan.joins.flatMap fun join =>
      .word "\n" :: join.chunks) =
        String.join (plan.joins.map fun join =>
          "\n" ++ join.render) := by
    simp [write_flatMap, Chunk.text, Join.render_eq_write]
  unfold text
  simp only [chunks, write_append, write_cons, write_nil,
    write_between_map renderOutput_eq_write, hJoins,
    Chunk.text, ← Filter.render_eq_write,
    ← renderOrders_eq_write, ← renderLimit_eq_write,
    String.append_assoc, String.append_empty]

end Plan

end Chunks

end SparseTables
