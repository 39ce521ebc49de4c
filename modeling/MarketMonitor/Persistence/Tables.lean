import MarketMonitor.Library.Transaction
import MarketMonitor.Persistence.Schema

/-!
# The tables of the Analysis Commit

The keys of the tables an Analysis Commit writes, from the migrations : a new row
clashes with one that has its primary key or breaks a `UNIQUE` constraint with it.
-/

namespace MarketMonitor

open Transaction

def stateEvaluationTable : Table AnalysisTables StateEvaluation where
  rows := AnalysisTables.stateEvaluation
  put rows t := { t with stateEvaluation := rows }
  clash a b := a.evaluationUid = b.evaluationUid ∨ a.evaluationHash = b.evaluationHash
  rows_put _ _ := rfl
  put_rows _ := rfl
  put_put _ _ _ := rfl

def stateEvaluationFactTable : Table AnalysisTables StateEvaluationFact where
  rows := AnalysisTables.stateEvaluationFact
  put rows t := { t with stateEvaluationFact := rows }
  clash a b := a = b
  rows_put _ _ := rfl
  put_rows _ := rfl
  put_put _ _ _ := rfl

def stateTransitionTable : Table AnalysisTables StateTransition where
  rows := AnalysisTables.stateTransition
  put rows t := { t with stateTransition := rows }
  clash a b := a.transitionUid = b.transitionUid ∨ a.evaluationUid = b.evaluationUid
  rows_put _ _ := rfl
  put_rows _ := rfl
  put_put _ _ _ := rfl

def currentStateProjectionTable : Table AnalysisTables StateProjection where
  rows := AnalysisTables.currentStateProjection
  put rows t := { t with currentStateProjection := rows }
  clash a b := a.subjectUid = b.subjectUid
  rows_put _ _ := rfl
  put_rows _ := rfl
  put_put _ _ _ := rfl

def guardianEvaluationTable : Table AnalysisTables GuardianEvaluation where
  rows := AnalysisTables.guardianEvaluation
  put rows t := { t with guardianEvaluation := rows }
  clash a b := a.guardianUid = b.guardianUid ∨ a.stateEvaluationUid = b.stateEvaluationUid ∨
    a.evaluationHash = b.evaluationHash
  rows_put _ _ := rfl
  put_rows _ := rfl
  put_put _ _ _ := rfl

def guardianRiskTagTable : Table AnalysisTables GuardianRiskTag where
  rows := AnalysisTables.guardianRiskTag
  put rows t := { t with guardianRiskTag := rows }
  clash a b := a.guardianUid = b.guardianUid ∧ a.riskTag = b.riskTag
  rows_put _ _ := rfl
  put_rows _ := rfl
  put_put _ _ _ := rfl

def guardianRiskEvidenceTable : Table AnalysisTables GuardianRiskEvidence where
  rows := AnalysisTables.guardianRiskEvidence
  put rows t := { t with guardianRiskEvidence := rows }
  clash a b := a = b
  rows_put _ _ := rfl
  put_rows _ := rfl
  put_put _ _ _ := rfl

def scoutEvaluationTable : Table AnalysisTables ScoutEvaluation where
  rows := AnalysisTables.scoutEvaluation
  put rows t := { t with scoutEvaluation := rows }
  clash a b := a.scoutUid = b.scoutUid ∨ a.guardianUid = b.guardianUid ∨
    a.evaluationHash = b.evaluationHash
  rows_put _ _ := rfl
  put_rows _ := rfl
  put_put _ _ _ := rfl

def scoutOpportunityTagTable : Table AnalysisTables ScoutOpportunityTag where
  rows := AnalysisTables.scoutOpportunityTag
  put rows t := { t with scoutOpportunityTag := rows }
  clash a b := a.scoutUid = b.scoutUid ∧ a.opportunityTag = b.opportunityTag
  rows_put _ _ := rfl
  put_rows _ := rfl
  put_put _ _ _ := rfl

def scoutOpportunityEvidenceTable : Table AnalysisTables ScoutOpportunityEvidence where
  rows := AnalysisTables.scoutOpportunityEvidence
  put rows t := { t with scoutOpportunityEvidence := rows }
  clash a b := a = b
  rows_put _ _ := rfl
  put_rows _ := rfl
  put_put _ _ _ := rfl

def analysisCommitTable : Table AnalysisTables AnalysisCommit where
  rows := AnalysisTables.analysisCommit
  put rows t := { t with analysisCommit := rows }
  clash a b := a.commitUid = b.commitUid ∨ a.snapshotUid = b.snapshotUid ∨
    a.stateEvaluationUid = b.stateEvaluationUid ∨ a.guardianUid = b.guardianUid ∨
    a.scoutUid = b.scoutUid ∨ a.commitHash = b.commitHash
  rows_put _ _ := rfl
  put_rows _ := rfl
  put_put _ _ _ := rfl

def marketEventTable : Table AnalysisTables MarketEvent where
  rows := AnalysisTables.marketEvent
  put rows t := { t with marketEvent := rows }
  clash a b := a.eventUid = b.eventUid
  rows_put _ _ := rfl
  put_rows _ := rfl
  put_put _ _ _ := rfl

def eventVersionTable : Table AnalysisTables EventVersion where
  rows := AnalysisTables.eventVersion
  put rows t := { t with eventVersion := rows }
  clash a b := a.eventVersionUid = b.eventVersionUid ∨ a.versionHash = b.versionHash ∨
    (a.eventUid = b.eventUid ∧ a.version = b.version)
  rows_put _ _ := rfl
  put_rows _ := rfl
  put_put _ _ _ := rfl

def eventEvidenceTable : Table AnalysisTables EventEvidence where
  rows := AnalysisTables.eventEvidence
  put rows t := { t with eventEvidence := rows }
  clash a b := a = b
  rows_put _ _ := rfl
  put_rows _ := rfl
  put_put _ _ _ := rfl

def currentEventProjectionTable : Table AnalysisTables EventProjection where
  rows := AnalysisTables.currentEventProjection
  put rows t := { t with currentEventProjection := rows }
  clash a b := a.relatedKey = b.relatedKey ∨ a.eventVersionUid = b.eventVersionUid
  rows_put _ _ := rfl
  put_rows _ := rfl
  put_put _ _ _ := rfl

def notificationIntentTable : Table AnalysisTables NotificationIntent where
  rows := AnalysisTables.notificationIntent
  put rows t := { t with notificationIntent := rows }
  clash a b := a.intentUid = b.intentUid ∨ a.idempotencyKey = b.idempotencyKey ∨
    (a.eventVersionUid = b.eventVersionUid ∧ a.channel = b.channel)
  rows_put _ _ := rfl
  put_rows _ := rfl
  put_put _ _ _ := rfl

def notificationDeliveryStateTable : Table AnalysisTables NotificationDeliveryState where
  rows := AnalysisTables.notificationDeliveryState
  put rows t := { t with notificationDeliveryState := rows }
  clash a b := a.intentUid = b.intentUid
  rows_put _ _ := rfl
  put_rows _ := rfl
  put_put _ _ _ := rfl

def auditRecordTable : Table AnalysisTables AuditRecord where
  rows := AnalysisTables.auditRecord
  put rows t := { t with auditRecord := rows }
  clash a b := a.auditUid = b.auditUid
  rows_put _ _ := rfl
  put_rows _ := rfl
  put_put _ _ _ := rfl

end MarketMonitor
