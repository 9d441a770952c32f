import Turtle.Proofs.Compile.Texture
import Turtle.Proofs.Compile.Tracking

/-!
# Code opens no comments

The code of blocks without comments has a semicolon only behind a backslash, in the literals of
texts, as long as no choice that becomes a primitive has one.  So none of its lines is a comment.
-/

namespace Turtle

/-- No choice that becomes a primitive has a semicolon. -/
def Head.ChoosesPlainly (h : Head) : Prop :=
  ∀ field, (h.kind, field) ∈ Emitter.choiceFields → ';' ∉ (h.field field).toList

/-- A block that writes code where it stands, and whose choices are plain. -/
structure Block.WritesCode (b : Block) : Prop where
  definition : ¬ b.head.isDefinition
  choices : b.head.ChoosesPlainly

instance : DecidablePred Block.WritesCode := fun b ↦
  decidable_of_iff (¬ b.head.isDefinition ∧ ∀ entry ∈ Emitter.choiceFields,
      entry.1 = b.head.kind → ';' ∉ (b.head.field entry.2).toList)
    ⟨fun h ↦ ⟨h.1, fun _ hmem ↦ h.2 _ hmem rfl⟩,
      fun h ↦ ⟨h.definition, fun entry hmem heq ↦ h.choices entry.2 (heq ▸ hmem)⟩⟩

theorem Pass.grants_guarded (indent : String) : Pass.Grants Pass.Sound Guarded indent where
  name p hp kind nameOrId := ⟨.of_isIdentifier (hp.names.isIdentifier_get kind nameOrId),
    hp.name kind nameOrId⟩
  helper p hp entry _ := by
    refine ⟨?_, hp.helper indent entry.1 entry.2⟩
    obtain ⟨chosen, hlookup, heq⟩ | ⟨-, chosen, hlegal, -, heq⟩ :=
      p.helper_cases indent entry.1 entry.2
    · rw [heq]
      exact .of_isIdentifier (hp.legal (entry.1, chosen) (Table.mem_of_lookup hlookup))
    · rw [heq]
      exact .of_isIdentifier hlegal

/-- What a block supplies opens no comment. -/
theorem View.Offers.guarded {v : View} {kind s : String} (h : v.Offers kind s)
    (hindent : ';' ∉ v.options.indent.toList) (hsnippets : ∀ s ∈ v.snippets, s = none)
    (hchoices : ∀ field, (kind, field) ∈ Emitter.choiceFields → ';' ∉ (v.field field).toList) :
    Guarded s := by
  cases h with
  | number x => exact .of_isCharacter (Number.isCharacter_write x)
  | integer n => exact .of_isCharacter (Number.isCharacter_toString_int n)
  | word field => exact .quote _
  | lines field => exact .quoteLines _
  | choice h => exact .lower (hchoices _ h)
  | indent => exact guarded_of_notMem hindent
  | snippet h =>
    rw [hsnippets _ h]
    exact Guarded.texture.empty
  | snippetLines h =>
    rw [hsnippets _ h]
    exact Guarded.texture.empty

namespace Compiler

variable {o : Options} {b : Block}

theorem adds_guarded (hindent : ';' ∉ o.indent.toList) (hb : b.WritesCode) (hsilent : b.IsSilent) :
    (bare o).Adds Pass.Sound Guarded b where
  comments := by
    rw [hsilent.comments]
    exact Guarded.texture.empty
  surround code hcode := by
    change Guarded (o.bare.surround b.head.id code)
    rwa [Options.surround_bare]
  emit e he hn := by
    have hcomposes := Emitter.composes_standard he (Head.isDefinition_iff.not.1 hb.definition)
    refine Recipe.ends_run (fun q hq ↦ Recipe.leaves_respond hn (Pass.grants_guarded _)
      Guarded.texture (fun _ ↦ .prefixLines hindent) hq) ?_
    refine (hcomposes ((bare o).view e b) Guarded fun s hs ↦ ?_).mono
      fun _ hcode ↦ hcode.guarded fun _ ↦ id
    exact hs.guarded hindent (by simp [View.snippets, view, Options.bare, Options.beforeOf,
      Options.afterOf, Options.trapOf]) hb.choices

/-- The code of blocks without comments opens no comment. -/
theorem leaves_guarded (hindent : ';' ∉ o.indent.toList)
    (hb : ∀ d ∈ b.descendants, d.WritesCode) (hsilent : b.IsSilent) (alone plugged : Bool) :
    ((bare o).block b alone plugged).Leaves Pass.Sound Guarded Code.text := by
  have hparens (s : String) (hs : Guarded s) : Guarded ("(" ++ s ++ ")") :=
    ((guarded_of_notMem (by decide)).append hs).append (guarded_of_notMem (by decide))
  refine leaves_block Guarded.texture hparens (fun d hd ↦ adds_guarded hindent (hb d hd) ?_) _ _
  exact fun d' hd' ↦ hsilent d' (Block.descendants_subset hd hd')

end Compiler

end Turtle
