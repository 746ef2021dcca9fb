import TierLint.Settings.Basic
import TierLint.Settings.Value

/-!
# Decoding settings

Settings are records: a field that is missing has its standard value, fields
that nobody knows are ignored, and a list that is present replaces the standard
list. A value of the wrong shape makes the settings invalid as a whole.
-/

set_option autoImplicit false

namespace TierLint

open Value

/-- Decodes the patterns of the tiers. -/
def TierPatterns.decode? (surplus : Bool) (v : Value) : Option TierPatterns := do
  let fields ← v.record? surplus (["strict", "moderate", "light"].map String.toList)
  let standard := TierPatterns.standard
  let strict ← field? fields "strict" standard.strict strings?
  let moderate ← field? fields "moderate" standard.moderate strings?
  let light ← field? fields "light" standard.light strings?
  some { strict, moderate, light }

/-- Decodes the vocabulary. -/
def Vocabulary.decode? (surplus : Bool) (v : Value) : Option Vocabulary := do
  let fields ← v.record? surplus <|
    ["canonical-headings", "governance-headings", "directive-verbs", "modal-verbs",
     "subjective-words", "narrative-openers"].map String.toList
  let standard := Vocabulary.standard
  let canonicalHeadings ← field? fields "canonical-headings" standard.canonicalHeadings strings?
  let governanceHeadings ← field? fields "governance-headings" standard.governanceHeadings strings?
  let directiveVerbs ← field? fields "directive-verbs" standard.directiveVerbs strings?
  let modalVerbs ← field? fields "modal-verbs" standard.modalVerbs strings?
  let subjectiveWords ← field? fields "subjective-words" standard.subjectiveWords strings?
  let narrativeOpeners ← field? fields "narrative-openers" standard.narrativeOpeners strings?
  some { canonicalHeadings, governanceHeadings, directiveVerbs, modalVerbs, subjectiveWords,
         narrativeOpeners }

/-- Decodes the thresholds. -/
def Thresholds.decode? (surplus : Bool) (v : Value) : Option Thresholds := do
  let fields ← v.record? surplus <|
    ["moderate-max-missing-headings", "moderate-max-subjective", "moderate-max-modal",
     "light-max-subjective", "light-max-modal"].map String.toList
  let standard := Thresholds.standard
  let moderateMaxMissingHeadings ←
    field? fields "moderate-max-missing-headings" standard.moderateMaxMissingHeadings count?
  let moderateMaxSubjective ←
    field? fields "moderate-max-subjective" standard.moderateMaxSubjective count?
  let moderateMaxModal ← field? fields "moderate-max-modal" standard.moderateMaxModal count?
  let lightMaxSubjective ← field? fields "light-max-subjective" standard.lightMaxSubjective count?
  let lightMaxModal ← field? fields "light-max-modal" standard.lightMaxModal count?
  some { moderateMaxMissingHeadings, moderateMaxSubjective, moderateMaxModal, lightMaxSubjective,
         lightMaxModal }

/-- Decodes settings. `surplus` tells whether an array that stands for a record
may have more elements than the record has fields. -/
def Settings.decode? (surplus : Bool) (v : Value) : Option Settings := do
  let fields ← v.record? surplus <|
    ["root", "max-line-length", "tiers", "vocabulary", "thresholds"].map String.toList
  let standard := Settings.standard
  let root? ← field? fields "root" standard.root? optionalString?
  let maxLineLength ← field? fields "max-line-length" standard.maxLineLength count?
  let tiers ← field? fields "tiers" standard.tiers (TierPatterns.decode? surplus)
  let vocabulary ← field? fields "vocabulary" standard.vocabulary (Vocabulary.decode? surplus)
  let thresholds ← field? fields "thresholds" standard.thresholds (Thresholds.decode? surplus)
  some { root?, maxLineLength, tiers, vocabulary, thresholds }

end TierLint
