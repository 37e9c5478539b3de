import Verl.Trainer.ValueLoss
import Verl.FullyAsync.Staleness
import Verl.TransferQueue.Samples
import Verl.CheckpointEngine.Completion
import Verl.Engine.NextTokens
import Verl.Trainer.CheckpointCrash
import Verl.FullyAsync.MessageQueue
import Verl.FullyAsync.ServerManager
import Verl.FullyAsync.Trainer
import Verl.SingleController.Future
import Verl.RewardLoop.RateLimited
import Verl.Protocol.Serialize
import Verl.Utils.TokenCap
import Verl.Trainer.Validate
import Verl.Trainer.VocabParallelKL
import Verl.Models.LoadMerge
import Verl.Utils.FusedWeights
import Verl.Engine.DynamicCp
import Verl.Utils.OffloadRuns
import Verl.CheckpointEngine.NixlCompletion
import Verl.CheckpointEngine.Topology
import Verl.CheckpointEngine.MooncakeCompletion
import Verl.Trainer.OneStepOffPolicy
import Verl.Trainer.SftTrainer
import Verl.Trainer.CheckpointHandler
import Verl.Engine.PerTensorParam
import Verl.Workers.UpdateWeights
import Verl.RouterReplay.RecordPass
import Verl.Trainer.AsyncSaveRuns
import Verl.Utils.MegatronResume
import Verl.Utils.UlyssesTensors
import Verl.CheckpointEngine.TypedDelivery
import Verl.Trainer.GeoMeanLoss
import Verl.Trainer.OptimalTokenBaseline
import Verl.Qat.ExportMatch
import Verl.SingleController.CallerObjects
import Verl.Trainer.BalanceBatch
import Verl.AgentLoop.ComputeScore
import Verl.Utils.TorchIndex
import Verl.Trainer.RewardToGo
import Verl.Trainer.RejectionMask
import Verl.Trainer.CorrectionWeights
import Verl.RewardLoop.ConcurrencyLimit
import Verl.RewardLoop.TokenBucket
import Verl.Trainer.Retention
import Verl.Trainer.BatchPadding
import Verl.Protocol.JaggedChunks
import Verl.Protocol.BatchDims
import Verl.FullyAsync.PartialRollout
import Verl.ModelMerger.PipelineShards
import Verl.Utils.CpuSnapshots
import Verl.Workers.SftLoss
import Verl.Models.TiledMlp
import Verl.ModelMerger.FsdpShards
import Verl.RewardLoop.NaiveRouter
import Verl.Dataset.SftSamples
import Verl.Trainer.DistillationMask
import Verl.Trainer.KlControl
