import RpcSchema.Proofs.Grammar.Completeness
import RpcSchema.Proofs.Grammar.Words

/-!
# A source is accepted when the grammar derives its words

Soundness and completeness of the readers meet at the words of a source: what is read was derived from
words that were taken up to the end of the file, and there is one way only to take words up to there.
-/

namespace RpcSchema

open TokenSupply

/-- A schema is read from a scanner when the grammar derives its statements from the words. -/
lemma Reader.schema_inFront_iff (s : Scanner) (schema : Schema) :
    (∃ w, Reader.schema (Lookahead.inFront s) = .ok schema w)
      ↔ Grammar.Statements s.words schema.statements := by
  obtain ⟨w, hwords, hend⟩ := Lookahead.took_words s
  constructor
  · rintro ⟨w', hread⟩
    obtain ⟨ws, hws, hend', hstatements⟩ := Reader.schema_sound (Lookahead.ready_inFront s) hread
    rw [hwords.eq_of_end hws hend hend']
    exact hstatements
  · intro h
    exact ⟨w, Reader.schema_complete h hwords hend⟩

/-- A schema is read from a source when the grammar derives its statements from the words. -/
lemma Schema.ofSource_eq_ok_iff (source : Source) (schema : Schema) :
    Schema.ofSource source = .ok schema ↔ Grammar.Statements source.words schema.statements := by
  have hscanner := Reader.schema_inFront_iff (.ofSource source) schema
  rw [show (Scanner.ofSource source).words = source.words from rfl] at hscanner
  rw [← hscanner, Schema.ofSource]
  constructor
  · intro h
    split at h
    · next s w hread =>
        cases h
        exact ⟨w, hread⟩
    · cases h
  · rintro ⟨w, hread⟩
    rw [show Reader.schema (Lookahead.ofSource source) = .ok schema w from hread]

/-- **The accepted sources.**  The words of a source are its tokens without line feeds and the end of the
file.  A source is accepted exactly when the grammar derives its words; the schema that is read is the
one that is derived, spans included; and no source has two derivations with different schemas. -/
theorem Schema.ofSource_accepts_grammar (source : Source) :
    source.words.map (·.token)
        = source.tokens.filter (fun t => t.kind ≠ .newline ∧ t.kind ≠ .endOfFile)
      ∧ ((∃ schema, Schema.ofSource source = .ok schema)
        ↔ ∃ statements, Grammar.Statements source.words statements)
      ∧ (∀ schema, Schema.ofSource source = .ok schema
        ↔ Grammar.Statements source.words schema.statements)
      ∧ ∀ ss ss', Grammar.Statements source.words ss → Grammar.Statements source.words ss' →
        ss = ss' := by
  refine ⟨source.map_token_words, ⟨?_, ?_⟩, Schema.ofSource_eq_ok_iff source, ?_⟩
  · rintro ⟨schema, h⟩
    exact ⟨_, (Schema.ofSource_eq_ok_iff source schema).1 h⟩
  · rintro ⟨statements, h⟩
    exact ⟨⟨statements⟩, (Schema.ofSource_eq_ok_iff source ⟨statements⟩).2 h⟩
  · intro ss ss' h h'
    have hread := (Schema.ofSource_eq_ok_iff source ⟨ss⟩).2 h
    have hread' := (Schema.ofSource_eq_ok_iff source ⟨ss'⟩).2 h'
    rw [hread] at hread'
    cases hread'
    rfl

end RpcSchema
