import SchedulerLearning.CommandLine.Command
import SchedulerLearning.CommandLine.Options
import SchedulerLearning.CommandLine.Report
import SchedulerLearning.Decimal.Binary64
import SchedulerLearning.Decimal.Layout
import SchedulerLearning.Decimal.Reader
import SchedulerLearning.Decimal.Rounding
import SchedulerLearning.Decimal.Shortest
import SchedulerLearning.Engine.Channel
import SchedulerLearning.Engine.JobQueue
import SchedulerLearning.Engine.Schedule
import SchedulerLearning.Engine.Session
import SchedulerLearning.Engine.Worker
import SchedulerLearning.Fault
import SchedulerLearning.Learning.Attribution
import SchedulerLearning.Learning.Config
import SchedulerLearning.Learning.Error
import SchedulerLearning.Learning.Mixture
import SchedulerLearning.Learning.Profile
import SchedulerLearning.Learning.Rewards
import SchedulerLearning.Learning.Scheduler
import SchedulerLearning.Learning.Update
import SchedulerLearning.Main
import SchedulerLearning.Model.DecisionProcess
import SchedulerLearning.Model.Distribution
import SchedulerLearning.Model.Error
import SchedulerLearning.Model.Explicit
import SchedulerLearning.Model.Mutex
import SchedulerLearning.Model.Property
import SchedulerLearning.Model.RandomWalk
import SchedulerLearning.Model.State
import SchedulerLearning.Model.Trace
import SchedulerLearning.Model.Verdict
import SchedulerLearning.ModelFile.Parser
import SchedulerLearning.ModelFile.Token
import SchedulerLearning.Random.Generator
import SchedulerLearning.Random.Keystream
import SchedulerLearning.Room
import SchedulerLearning.Scalar
import SchedulerLearning.Statistics.Beta
import SchedulerLearning.Statistics.Error
import SchedulerLearning.Statistics.HypothesisTest
import SchedulerLearning.Statistics.IntervalEstimator
import SchedulerLearning.Statistics.LogGamma
import SchedulerLearning.Text.Blank
import SchedulerLearning.Word
import SchedulerLearning.Proofs.JobConservation
import SchedulerLearning.Proofs.WorkerMoves
import SchedulerLearning.Proofs.SessionTurns
import SchedulerLearning.Proofs.Runs
import SchedulerLearning.Proofs.Manning
import SchedulerLearning.Proofs.BlockBooks
import SchedulerLearning.Proofs.BlockDelivery
import SchedulerLearning.Proofs.CheckingTraffic
import SchedulerLearning.Proofs.CheckingProgress
import SchedulerLearning.Proofs.Probabilities
import SchedulerLearning.Proofs.UpdateRules
import SchedulerLearning.Proofs.SchedulerHistories
import SchedulerLearning.Proofs.RewardGrowth
import SchedulerLearning.Proofs.RewardRaces
import SchedulerLearning.Proofs.StoppingRule
import SchedulerLearning.Proofs.ChoiceAgreement
import SchedulerLearning.Proofs.AgreementRuns
import SchedulerLearning.Proofs.SequentialProgram
import SchedulerLearning.Proofs.WorkerInSequence
import SchedulerLearning.Proofs.SingleWorker
import SchedulerLearning.Proofs.SequentialLearning
import SchedulerLearning.Proofs.SequentialChecking
import SchedulerLearning.Proofs.Stages
import SchedulerLearning.Proofs.SingleWorkerRuns
import SchedulerLearning.Proofs.ExecutedRuns
import SchedulerLearning.Proofs.SingleWorkerSchedules
import SchedulerLearning.Proofs.Evidence
import SchedulerLearning.Proofs.EvidenceOrder
import SchedulerLearning.Proofs.WholeShapes
import SchedulerLearning.Proofs.OppositeHypotheses
import SchedulerLearning.Proofs.SimulatedPaths
import SchedulerLearning.Proofs.BoundedVerdicts
import SchedulerLearning.Proofs.MutualExclusion
import SchedulerLearning.Proofs.FirstFailure
import SchedulerLearning.Proofs.MostLikely
import SchedulerLearning.Proofs.SchedulerGrowth
import SchedulerLearning.Proofs.Calls
import SchedulerLearning.Proofs.BlockBoundaries
import SchedulerLearning.Proofs.CheckingFrame
import SchedulerLearning.Proofs.CheckingObserves
import SchedulerLearning.Proofs.StateIdentity
import SchedulerLearning.Proofs.IntervalEstimates
import SchedulerLearning.Proofs.NumberText
import SchedulerLearning.Proofs.ModelFileWords
import SchedulerLearning.Proofs.ModelFileGrammar
import SchedulerLearning.Proofs.FloatOrder
import SchedulerLearning.Proofs.EnumeratedModels
import SchedulerLearning.Proofs.ModelFileReading
import SchedulerLearning.Proofs.ModelFileMeaning
import SchedulerLearning.Proofs.ModelFileSurplus
import SchedulerLearning.Proofs.DecidingSteps
import SchedulerLearning.Proofs.ModelFilePlaces
import SchedulerLearning.Proofs.ModelFileRefusals
import SchedulerLearning.Proofs.ModelFileBuilding
import SchedulerLearning.Proofs.ModelFileErrors
import SchedulerLearning.Proofs.CheckedDivision
import SchedulerLearning.Proofs.ContinuedFraction
import SchedulerLearning.Proofs.Reflection
import SchedulerLearning.Proofs.ScoreShares
import SchedulerLearning.Proofs.UpdateOutcomes
import SchedulerLearning.Proofs.Sampling
import SchedulerLearning.Proofs.Scores
import SchedulerLearning.Proofs.CheckedUpdates
import SchedulerLearning.Proofs.LeastProbabilities
import SchedulerLearning.Proofs.SampledChoices
import SchedulerLearning.Proofs.ImpossibleBranches
import SchedulerLearning.Proofs.BoundedWalks
import SchedulerLearning.Proofs.Renumbering
import SchedulerLearning.Proofs.FloatRounding
import SchedulerLearning.Proofs.FloatSums
import SchedulerLearning.Proofs.AcceptedProbabilities
import SchedulerLearning.Proofs.ValidSettings
import SchedulerLearning.Proofs.UnrefusedRuns
import SchedulerLearning.Proofs.RunSizes
import SchedulerLearning.Proofs.FirstVisits
import SchedulerLearning.Proofs.SchedulerVisits
import SchedulerLearning.Proofs.RewardVisits
import SchedulerLearning.Proofs.FirstWriters
