import Restage.Main
import Restage.Proofs.Batch.Accounting
import Restage.Proofs.Conversion.Balance
import Restage.Proofs.Conversion.CommentedText
import Restage.Proofs.Conversion.CompleteStatements
import Restage.Proofs.Conversion.ConditionMeaning
import Restage.Proofs.Conversion.DescentLines
import Restage.Proofs.Conversion.Imports
import Restage.Proofs.Conversion.SelfReferences
import Restage.Proofs.Conversion.Shadowing
import Restage.Proofs.Java.InsertedComments
import Restage.Proofs.Java.ParameterLists
import Restage.Proofs.Locator.Slots
import Restage.Proofs.Pattern.Payloads
import Restage.Proofs.Pattern.Ranking
import Restage.Proofs.Pattern.Replies
import Restage.Proofs.Project.FileOrder
import Restage.Proofs.Project.Specifiers
import Restage.Proofs.TypeScript.TypeMapping
